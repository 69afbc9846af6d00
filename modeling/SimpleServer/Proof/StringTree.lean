import SimpleServer.Hpack.FastCompare

/-!
# The tree of the generated comparison

All strings of a tree have the same length, and the prefixes of a node are different, so at
most one path fits a string. Adding a string adds its path; joining nodes keeps all paths.

* `Leads`: the strings of a tree with their results.
* `addCase_leads`, `iterateNode_leads`: what adding and joining do to them.
* `cleanup_stable`: **the joining ends**, a traversal that changes the tree takes a node away.
* `wholePrefixes_iff`: when no prefix of a joined tree has a zero byte inside.
-/

namespace SimpleServer.Hpack

open FastStringCompareNode

/-! ## The strings of a tree -/

/-- The string is spelled by a path to an end with the result. -/
inductive Leads : FastStringCompareNode → Bytes → ℕ → Prop
  | end (result : ℕ) : Leads (.end result) [] result
  | step (prefixLen : ℕ) (prefixes : List (Bytes × FastStringCompareNode))
      (chars : Bytes) (child : FastStringCompareNode) (rest : Bytes) (result : ℕ) :
      (chars, child) ∈ prefixes → Leads child rest result →
      Leads (.normal prefixLen prefixes) (chars ++ rest) result

/-- All strings of the tree have this length, and at most one prefix of a node fits. -/
inductive Uniform : ℕ → FastStringCompareNode → Prop
  | end (result : ℕ) : Uniform 0 (.end result)
  | normal (prefixLen : ℕ) (prefixes : List (Bytes × FastStringCompareNode)) (n : ℕ) :
      0 < prefixLen → (prefixes.map Prod.fst).Nodup →
      (∀ p ∈ prefixes, p.1.length = prefixLen) → (∀ p ∈ prefixes, Uniform n p.2) →
      Uniform (prefixLen + n) (.normal prefixLen prefixes)

/-- No prefix of the tree has a zero byte before its last character. -/
inductive WholePrefixes : FastStringCompareNode → Prop
  | end (result : ℕ) : WholePrefixes (.end result)
  | normal (prefixLen : ℕ) (prefixes : List (Bytes × FastStringCompareNode)) :
      (∀ p ∈ prefixes, 0 ∉ p.1.dropLast) → (∀ p ∈ prefixes, WholePrefixes p.2) →
      WholePrefixes (.normal prefixLen prefixes)

variable {node child root : FastStringCompareNode} {prefixes : List (Bytes × FastStringCompareNode)}
  {n prefixLen result idx : ℕ} {str rest chars word : Bytes}

theorem leads_end_iff : Leads (.end idx) str result ↔ str = [] ∧ result = idx := by
  constructor
  · intro h
    cases h
    exact ⟨rfl, rfl⟩
  · rintro ⟨rfl, rfl⟩
    exact .end result

theorem leads_normal_iff :
    Leads (.normal prefixLen prefixes) str result ↔
      ∃ p ∈ prefixes, ∃ rest, str = p.1 ++ rest ∧ Leads p.2 rest result := by
  constructor
  · intro h
    cases h with
    | step _ _ chars child rest _ hmem hleads => exact ⟨(chars, child), hmem, rest, rfl, hleads⟩
  · rintro ⟨⟨chars, child⟩, hmem, rest, rfl, hleads⟩
    exact .step _ _ chars child rest _ hmem hleads

/-- The strings have the length of the tree. -/
theorem Uniform.length (h : Uniform n node) (hleads : Leads node str result) : str.length = n := by
  induction h generalizing str with
  | «end» result' =>
    rw [(leads_end_iff.1 hleads).1]
    rfl
  | normal prefixLen prefixes n hpos hnodup hchars hchildren ih =>
    obtain ⟨p, hmem, rest, rfl, hrest⟩ := leads_normal_iff.1 hleads
    rw [List.length_append, hchars p hmem, ih p hmem hrest]

/-! ## Joining nodes -/

/-- A tree as it is built and joined: nodes that go on with single characters, and tails that were
joined. Every path leads to a string. -/
inductive Merged : ℕ → FastStringCompareNode → Prop
  | end (result : ℕ) : Merged 0 (.end result)
  | tail (n : ℕ) (chars : Bytes) (result : ℕ) : chars.length = n → 0 < n →
      Merged n (.normal n [(chars, .end result)])
  | chars (prefixes : List (Bytes × FastStringCompareNode)) (n : ℕ) :
      (prefixes.map Prod.fst).Nodup → (∀ p ∈ prefixes, ∃ c, p.1 = [c]) →
      (∀ p ∈ prefixes, Merged n p.2) → (∀ p ∈ prefixes, ∃ str result, Leads p.2 str result) →
      Merged (n + 1) (.normal 1 prefixes)

theorem Merged.uniform (h : Merged n node) : Uniform n node := by
  induction h with
  | «end» result => exact .end result
  | tail n chars result hlength hpos =>
    apply Uniform.normal n [(chars, .end result)] 0 hpos (List.nodup_singleton _)
    · intro p hp
      rw [List.mem_singleton.1 hp]
      exact hlength
    · intro p hp
      rw [List.mem_singleton.1 hp]
      exact .end result
  | chars prefixes n hnodup hchars _ _ ih =>
    rw [Nat.add_comm]
    apply Uniform.normal 1 prefixes n Nat.one_pos hnodup
    · intro p hp
      obtain ⟨c, hc⟩ := hchars p hp
      rw [hc]
      rfl
    · exact ih

theorem joinShortPath_eq_some {joined : FastStringCompareNode}
    (h : joinShortPath prefixLen prefixes = some joined) :
    ∃ chars childLen childChars result,
      prefixes = [(chars, .normal childLen [(childChars, .end result)])] ∧
        joined = .normal (childLen + prefixLen) [(chars ++ childChars, .end result)] := by
  unfold joinShortPath at h
  split at h
  · exact ⟨_, _, _, _, rfl, (Option.some.inj h).symm⟩
  · cases h

/-- A node that goes on with a single prefix to an end holds the tail of a string. -/
theorem Merged.chars_length {childLen : ℕ}
    (h : Merged n (.normal childLen [(chars, .end result)])) : chars.length = childLen ∧
      childLen = n := by
  cases h with
  | tail _ _ _ hlength _ => exact ⟨hlength, rfl⟩
  | chars _ n _ hchars hchildren _ =>
    obtain ⟨c, hc⟩ := hchars _ (List.mem_singleton_self _)
    have hzero : n = 0 := by
      cases hchildren _ (List.mem_singleton_self _)
      rfl
    have hc : chars = [c] := hc
    rw [hc, hzero]
    exact ⟨rfl, rfl⟩

/-- **A traversal** keeps the strings of a tree, and its shape. -/
theorem iterateNode_leads (h : Merged n node) :
    Merged n (iterateNode node).1 ∧
      ∀ str result, Leads (iterateNode node).1 str result ↔ Leads node str result := by
  induction h with
  | «end» result =>
    unfold iterateNode
    exact ⟨.end result, fun _ _ => Iff.rfl⟩
  | tail n chars result hlength hpos =>
    have hstays : iterateNode (.normal n [(chars, .end result)]) =
        (.normal n [(chars, .end result)], false) := by
      unfold iterateNode joinShortPath
      simp [iterateNode]
    rw [hstays]
    exact ⟨.tail n chars result hlength hpos, fun _ _ => Iff.rfl⟩
  | chars prefixes n hnodup hchars hchildren hlive ih =>
    unfold iterateNode
    cases hjoin : joinShortPath 1 prefixes with
    | some joined =>
      obtain ⟨chars, childLen, childChars, result, rfl, rfl⟩ := joinShortPath_eq_some hjoin
      dsimp only
      obtain ⟨c, hc⟩ := hchars _ (List.mem_singleton_self _)
      obtain ⟨hlength, rfl⟩ := (hchildren _ (List.mem_singleton_self _)).chars_length
      have hc : chars = [c] := hc
      refine ⟨?_, ?_⟩
      · apply Merged.tail
        · rw [hc, List.length_append, hlength, Nat.add_comm]
          rfl
        · omega
      · intro str result'
        simp [leads_normal_iff, leads_end_iff]
    | none =>
      dsimp only
      refine ⟨?_, ?_⟩
      · apply Merged.chars
        · simpa [List.map_map, Function.comp_def] using hnodup
        · intro p hp
          simp only [List.map_map, List.mem_map, Function.comp_apply] at hp
          obtain ⟨q, hq, rfl⟩ := hp
          exact hchars q hq
        · intro p hp
          simp only [List.map_map, List.mem_map, Function.comp_apply] at hp
          obtain ⟨q, hq, rfl⟩ := hp
          exact (ih q hq).1
        · intro p hp
          simp only [List.map_map, List.mem_map, Function.comp_apply] at hp
          obtain ⟨q, hq, rfl⟩ := hp
          obtain ⟨str, result, hleads⟩ := hlive q hq
          exact ⟨str, result, ((ih q hq).2 str result).2 hleads⟩
      · intro str result
        rw [leads_normal_iff, leads_normal_iff]
        simp only [List.map_map, List.mem_map, Function.comp_apply]
        constructor
        · rintro ⟨_, ⟨q, hq, rfl⟩, rest, rfl, hrest⟩
          exact ⟨q, hq, rest, rfl, ((ih q hq).2 rest result).1 hrest⟩
        · rintro ⟨q, hq, rest, rfl, hrest⟩
          exact ⟨_, ⟨q, hq, rfl⟩, rest, rfl, ((ih q hq).2 rest result).2 hrest⟩

/-- Any number of traversals keeps the strings. -/
theorem cleanupLoop_leads (fuel : ℕ) (h : Merged n root) :
    Merged n (cleanupLoop fuel root) ∧
      ∀ str result, Leads (cleanupLoop fuel root) str result ↔ Leads root str result := by
  induction fuel generalizing root with
  | zero => exact ⟨h, fun _ _ => Iff.rfl⟩
  | succ fuel ih =>
    obtain ⟨hmerged, hleads⟩ := iterateNode_leads h
    unfold cleanupLoop
    dsimp only
    split_ifs
    · obtain ⟨hmerged', hleads'⟩ := ih hmerged
      exact ⟨hmerged', fun str result => (hleads' str result).trans (hleads str result)⟩
    · exact ⟨hmerged, hleads⟩

/-! ## The joining ends -/

/-- A traversal that changes the tree takes a node away. -/
theorem iterateNode_amount (node : FastStringCompareNode) :
    (iterateNode node).1.nodeAmount + (if (iterateNode node).2 then 1 else 0) ≤
      node.nodeAmount := by
  induction node using iterateNode.induct with
  | case1 result => simp [iterateNode]
  | case2 prefixLen prefixes joined hjoin =>
    obtain ⟨chars, childLen, childChars, result, rfl, rfl⟩ := joinShortPath_eq_some hjoin
    unfold iterateNode
    rw [hjoin]
    simp [nodeAmount]
  | case3 prefixLen prefixes hjoin ih =>
    unfold iterateNode
    rw [hjoin]
    dsimp only
    have hsum : ((prefixes.map fun p => (p.1, (iterateNode p.2).1)).map
          fun p => p.2.nodeAmount).sum +
        (if (prefixes.any fun p => (iterateNode p.2).2) then 1 else 0) ≤
          (prefixes.map fun p => p.2.nodeAmount).sum := by
      clear hjoin
      induction prefixes with
      | nil => simp
      | cons p prefixes ihl =>
        have hfirst := ih p List.mem_cons_self
        have hrest := ihl fun q hq => ih q (List.mem_cons_of_mem _ hq)
        simp only [List.map_cons, List.sum_cons, List.any_cons, Bool.or_eq_true] at hrest ⊢
        split_ifs at hfirst hrest ⊢ <;> simp_all <;> omega
    unfold nodeAmount
    simp only [List.map_map, List.any_map, Function.comp_def] at hsum ⊢
    omega

theorem iterateNode_normal (hjoin : joinShortPath prefixLen prefixes = none)
    (h : (iterateNode (.normal prefixLen prefixes)).2 = false) :
    ∀ p ∈ prefixes, (iterateNode p.2).2 = false := by
  unfold iterateNode at h
  rw [hjoin] at h
  simpa using h

/-- A tree that does not change is not joined at its root. -/
theorem joinShortPath_of_stable (h : (iterateNode (.normal prefixLen prefixes)).2 = false) :
    joinShortPath prefixLen prefixes = none := by
  unfold iterateNode at h
  cases hjoin : joinShortPath prefixLen prefixes with
  | none => rfl
  | some joined =>
    rw [hjoin] at h
    cases h

/-- A traversal without a change leaves the tree as it is. -/
theorem iterateNode_stable (h : (iterateNode node).2 = false) : (iterateNode node).1 = node := by
  induction node using iterateNode.induct with
  | case1 result => rw [iterateNode]
  | case2 prefixLen prefixes joined hjoin =>
    rw [joinShortPath_of_stable h] at hjoin
    cases hjoin
  | case3 prefixLen prefixes hjoin ih =>
    have hchildren := iterateNode_normal hjoin h
    unfold iterateNode
    rw [hjoin]
    dsimp only
    rw [List.map_map]
    congr 1
    calc prefixes.map _ = prefixes.map id := by
          apply List.map_congr_left
          intro p hp
          simp only [Function.comp_apply]
          rw [ih p hp (hchildren p hp)]
          rfl
      _ = prefixes := List.map_id _

theorem nodeAmount_pos (node : FastStringCompareNode) : 0 < node.nodeAmount := by
  unfold nodeAmount
  split <;> omega

/-- **The joining ends**: the last traversal did not change the tree. -/
theorem cleanup_stable (root : FastStringCompareNode) :
    (iterateNode (cleanupShortPathsFastCompare root)).2 = false := by
  have hloop : ∀ fuel root, root.nodeAmount ≤ fuel →
      (iterateNode (cleanupLoop fuel root)).2 = false := by
    intro fuel
    induction fuel with
    | zero =>
      intro root hle
      have := nodeAmount_pos root
      omega
    | succ fuel ih =>
      intro root hle
      have hamount := iterateNode_amount root
      unfold cleanupLoop
      dsimp only
      by_cases hchanged : (iterateNode root).2 = true
      · rw [if_pos hchanged] at hamount ⊢
        exact ih _ (by omega)
      · rw [if_neg hchanged]
        have hfalse := Bool.eq_false_iff.2 hchanged
        rw [iterateNode_stable hfalse]
        exact hfalse
  exact hloop _ root le_rfl

/-! ## Adding strings -/

/-- A tree for strings of a length whose prefixes are single characters. -/
inductive CharTree : ℕ → FastStringCompareNode → Prop
  | end (result : ℕ) : CharTree 0 (.end result)
  | normal (prefixes : List (Bytes × FastStringCompareNode)) (n : ℕ) :
      (prefixes.map Prod.fst).Nodup → (∀ p ∈ prefixes, ∃ c, p.1 = [c]) →
      (∀ p ∈ prefixes, CharTree n p.2) → (∀ p ∈ prefixes, ∃ str result, Leads p.2 str result) →
      CharTree (n + 1) (.normal 1 prefixes)

theorem CharTree.merged (h : CharTree n node) : Merged n node := by
  induction h with
  | «end» result => exact .end result
  | normal prefixes n hnodup hchars _ hlive ih => exact .chars prefixes n hnodup hchars ih hlive

/-- Single characters are not cut. -/
theorem CharTree.wholePrefixes (h : CharTree n node) : WholePrefixes node := by
  induction h with
  | «end» result => exact .end result
  | normal prefixes n _ hchars _ _ ih =>
    apply WholePrefixes.normal
    · intro p hp
      obtain ⟨c, hc⟩ := hchars p hp
      rw [hc]
      exact List.not_mem_nil
    · exact ih

theorem charTree_empty (n : ℕ) : CharTree (n + 1) (.normal 1 []) :=
  .normal [] n List.nodup_nil (by simp) (by simp) (by simp)

theorem not_leads_empty : ¬ Leads (.normal prefixLen []) str result := by
  rw [leads_normal_iff]
  simp

/-- **A new string** is added to the strings of the tree. -/
theorem addCase_leads (idx : ℕ) (h : CharTree word.length node)
    (hnew : ∀ result, ¬ Leads node word result) :
    CharTree word.length (addCase idx word node) ∧
      ∀ str result, Leads (addCase idx word node) str result ↔
        Leads node str result ∨ (str = word ∧ result = idx) := by
  induction word generalizing node with
  | nil =>
    cases h with
    | «end» result => exact absurd (.end result) (hnew result)
  | cons c rest ih =>
    rw [List.length_cons] at h ⊢
    cases h with
    | normal prefixes _ hnodup hchars hchildren hlive =>
      unfold addCase
      cases hfind : prefixes.findIdx? (fun p => p.1 == [c]) with
      | none =>
        have hother : ∀ p ∈ prefixes, p.1 ≠ [c] := by
          intro p hp
          simpa using (List.findIdx?_eq_none_iff.1 hfind) p hp
        -- the new path has this string only
        have hpath : CharTree rest.length
              (addCase idx rest (if rest.length = 0 then .end idx else .normal 1 [])) ∧
            ∀ str result,
              Leads (addCase idx rest (if rest.length = 0 then .end idx else .normal 1 [])) str
                result ↔ str = rest ∧ result = idx := by
          cases rest with
          | nil => exact ⟨.end idx, fun _ _ => leads_end_iff⟩
          | cons c' rest =>
            rw [if_neg (by simp)]
            obtain ⟨htree, hleads⟩ := ih (charTree_empty rest.length)
              fun _ => not_leads_empty
            refine ⟨htree, ?_⟩
            intro str result
            rw [hleads]
            simp [not_leads_empty]
        obtain ⟨htree, hleads⟩ := hpath
        dsimp only
        refine ⟨?_, ?_⟩
        · apply CharTree.normal
          · rw [List.map_append]
            apply List.nodup_append_comm.1
            apply List.nodup_cons.2 ⟨?_, hnodup⟩
            intro hmem
            obtain ⟨p, hp, heq⟩ := List.mem_map.1 hmem
            exact hother p hp heq
          · intro p hp
            rcases List.mem_append.1 hp with hp | hp
            · exact hchars p hp
            · rw [List.mem_singleton.1 hp]
              exact ⟨c, rfl⟩
          · intro p hp
            rcases List.mem_append.1 hp with hp | hp
            · exact hchildren p hp
            · rw [List.mem_singleton.1 hp]
              exact htree
          · intro p hp
            rcases List.mem_append.1 hp with hp | hp
            · exact hlive p hp
            · rw [List.mem_singleton.1 hp]
              exact ⟨rest, idx, (hleads rest idx).2 ⟨rfl, rfl⟩⟩
        · intro str result
          rw [leads_normal_iff, leads_normal_iff]
          constructor
          · rintro ⟨p, hp, tail, rfl, htail⟩
            rcases List.mem_append.1 hp with hp | hp
            · exact Or.inl ⟨p, hp, tail, rfl, htail⟩
            · rw [List.mem_singleton.1 hp] at htail ⊢
              obtain ⟨rfl, rfl⟩ := (hleads tail result).1 htail
              exact Or.inr ⟨rfl, rfl⟩
          · rintro (⟨p, hp, tail, rfl, htail⟩ | ⟨rfl, rfl⟩)
            · exact ⟨p, List.mem_append_left _ hp, tail, rfl, htail⟩
            · exact ⟨_, List.mem_append_right _ (List.mem_singleton_self _), rest, rfl,
                (hleads rest result).2 ⟨rfl, rfl⟩⟩
      | some foundIndex =>
        obtain ⟨hlt, hfound, -⟩ := List.findIdx?_eq_some_iff_getElem.1 hfind
        rw [beq_iff_eq] at hfound
        -- the path goes on below the prefix that is there
        have hsplit : prefixes = prefixes.take foundIndex ++
            prefixes[foundIndex] :: prefixes.drop (foundIndex + 1) := by
          rw [← List.drop_eq_getElem_cons hlt, List.take_append_drop]
        have hmodify := List.modify_eq_take_cons_drop
          (f := fun p : Bytes × FastStringCompareNode => (p.1, addCase idx rest p.2)) hlt
        dsimp only
        rw [hmodify]
        generalize prefixes[foundIndex] = found at hsplit hfound
        generalize prefixes.take foundIndex = before at hsplit
        generalize prefixes.drop (foundIndex + 1) = after at hsplit
        clear hmodify hfind hlt
        subst hsplit
        have hmem : found ∈ before ++ found :: after := by simp
        have hnewChild : ∀ result, ¬ Leads found.2 rest result := by
          intro result hleads
          apply hnew result
          rw [leads_normal_iff]
          exact ⟨found, hmem, rest, by rw [hfound]; rfl, hleads⟩
        obtain ⟨htree, hleads⟩ := ih (hchildren found hmem) hnewChild
        have hin : ∀ {p q : Bytes × FastStringCompareNode},
            p ∈ before ++ q :: after → p = q ∨ p ∈ before ++ found :: after := by
          intro p q hp
          rcases List.mem_append.1 hp with hp | hp
          · exact Or.inr (List.mem_append_left _ hp)
          · rcases List.mem_cons.1 hp with hp | hp
            · exact Or.inl hp
            · exact Or.inr (List.mem_append_right _ (List.mem_cons_of_mem _ hp))
        refine ⟨?_, ?_⟩
        · apply CharTree.normal
          · simpa using hnodup
          · intro p hp
            rcases hin hp with rfl | hp
            · exact hchars found hmem
            · exact hchars p hp
          · intro p hp
            rcases hin hp with rfl | hp
            · exact htree
            · exact hchildren p hp
          · intro p hp
            rcases hin hp with rfl | hp
            · exact ⟨rest, idx, (hleads rest idx).2 (Or.inr ⟨rfl, rfl⟩)⟩
            · exact hlive p hp
        · intro str result
          rw [leads_normal_iff, leads_normal_iff]
          constructor
          · rintro ⟨p, hp, tail, rfl, htail⟩
            rcases hin hp with rfl | hp
            · rcases (hleads tail result).1 htail with htail | ⟨rfl, rfl⟩
              · exact Or.inl ⟨found, hmem, tail, rfl, htail⟩
              · exact Or.inr ⟨by rw [hfound]; rfl, rfl⟩
            · exact Or.inl ⟨p, hp, tail, rfl, htail⟩
          · have hnext : (found.1, addCase idx rest found.2) ∈
                before ++ (found.1, addCase idx rest found.2) :: after := by simp
            rintro (⟨p, hp, tail, rfl, htail⟩ | ⟨rfl, rfl⟩)
            · rcases List.mem_append.1 hp with hp | hp
              · exact ⟨p, List.mem_append_left _ hp, tail, rfl, htail⟩
              · rcases List.mem_cons.1 hp with rfl | hp
                · exact ⟨_, hnext, tail, rfl, (hleads tail result).2 (Or.inl htail)⟩
                · exact ⟨p, List.mem_append_right _ (List.mem_cons_of_mem _ hp), tail, rfl, htail⟩
            · exact ⟨_, hnext, rest, by rw [hfound]; rfl,
                (hleads rest result).2 (Or.inr ⟨rfl, rfl⟩)⟩

/-- All strings of a list are added. -/
theorem foldl_addCase_leads {cazes : List (Bytes × ℕ)}
    (hcazes : ∀ caze ∈ cazes, caze.1.length = n)
    (hnodup : (cazes.map Prod.fst).Nodup) (h : CharTree n root)
    (hnew : ∀ caze ∈ cazes, ∀ result, ¬ Leads root caze.1 result) :
    CharTree n (cazes.foldl (fun root caze => addCase caze.2 caze.1 root) root) ∧
      ∀ str result,
        Leads (cazes.foldl (fun root caze => addCase caze.2 caze.1 root) root) str result ↔
          Leads root str result ∨ (str, result) ∈ cazes := by
  induction cazes generalizing root with
  | nil =>
    refine ⟨h, ?_⟩
    simp
  | cons caze cazes ih =>
    obtain rfl := hcazes caze List.mem_cons_self
    rw [List.map_cons, List.nodup_cons] at hnodup
    obtain ⟨htree, hleads⟩ := addCase_leads caze.2 h (hnew caze List.mem_cons_self)
    have hnew' : ∀ caze' ∈ cazes, ∀ result,
        ¬ Leads (addCase caze.2 caze.1 root) caze'.1 result := by
      intro caze' hmem result hleads'
      rcases (hleads caze'.1 result).1 hleads' with hold | ⟨hsame, -⟩
      · exact hnew caze' (List.mem_cons_of_mem _ hmem) result hold
      · exact hnodup.1 (List.mem_map.2 ⟨caze', hmem, hsame⟩)
    obtain ⟨htree', hleads''⟩ := ih (fun caze' hmem => hcazes caze' (List.mem_cons_of_mem _ hmem))
      hnodup.2 htree hnew'
    refine ⟨htree', ?_⟩
    intro str result
    rw [List.foldl_cons, hleads'', hleads, List.mem_cons, or_assoc]
    have hpair : (str, result) = caze ↔ str = caze.1 ∧ result = caze.2 := by
      rw [Prod.ext_iff]
    rw [hpair]

/-! ## Zero bytes -/

/-- A tree that is joined to the end and has one string only is a single prefix. -/
theorem Merged.single (h : Merged n node) (hstable : (iterateNode node).2 = false) (hpos : 0 < n)
    (hsome : ∃ str result, Leads node str result)
    (hone : ∀ str str' result result', Leads node str result → Leads node str' result' →
      str = str') : ∃ len chars result, node = .normal len [(chars, .end result)] := by
  induction h with
  | «end» result => exact absurd hpos (Nat.lt_irrefl 0)
  | tail n chars result _ _ => exact ⟨n, chars, result, rfl⟩
  | chars prefixes n hnodup hchars hchildren hlive ih =>
    -- two prefixes would lead to two strings
    have hsame : ∀ p ∈ prefixes, ∀ q ∈ prefixes, p = q := by
      intro p hp q hq
      obtain ⟨str, result, hleads⟩ := hlive p hp
      obtain ⟨str', result', hleads'⟩ := hlive q hq
      have heq := hone _ _ _ _ (leads_normal_iff.2 ⟨p, hp, str, rfl, hleads⟩)
        (leads_normal_iff.2 ⟨q, hq, str', rfl, hleads'⟩)
      obtain ⟨c, hc⟩ := hchars p hp
      obtain ⟨c', hc'⟩ := hchars q hq
      have hlength : p.1.length = q.1.length := by rw [hc, hc']; rfl
      exact List.inj_on_of_nodup_map hnodup hp hq (List.append_inj heq hlength).1
    cases prefixes with
    | nil =>
      obtain ⟨str, result, hleads⟩ := hsome
      exact absurd hleads not_leads_empty
    | cons p more =>
      have hnil : more = [] := by
        cases more with
        | nil => rfl
        | cons q more =>
          have hpq := hsame p (by simp) q (by simp)
          rw [hpq] at hnodup
          simp at hnodup
      subst hnil
      have hmem := List.mem_singleton_self p
      cases Nat.eq_zero_or_pos n with
      | inl hzero =>
        subst hzero
        obtain ⟨chars, child⟩ := p
        cases hchildren _ hmem with
        | «end» result => exact ⟨1, chars, result, rfl⟩
        | tail _ _ _ _ hlt => exact absurd hlt (Nat.lt_irrefl 0)
      | inr hn =>
        have hjoin := joinShortPath_of_stable hstable
        have honly : ∀ str str' result result', Leads p.2 str result → Leads p.2 str' result' →
            str = str' := by
          intro str str' result result' hleads hleads'
          exact List.append_cancel_left
            (hone _ _ _ _ (leads_normal_iff.2 ⟨p, hmem, str, rfl, hleads⟩)
            (leads_normal_iff.2 ⟨p, hmem, str', rfl, hleads'⟩))
        obtain ⟨len, chars, result, hchild⟩ :=
          ih p hmem (iterateNode_normal hjoin hstable p hmem) hn (hlive p hmem) honly
        obtain ⟨chars', child⟩ := p
        have hchild : child = .normal len [(chars, .end result)] := hchild
        rw [hchild] at hjoin
        cases hjoin

/-- **When no prefix of a joined tree is cut**: a zero byte inside a string stands where another
string begins with the same characters. -/
theorem wholePrefixes_iff (h : Merged n node) (hstable : (iterateNode node).2 = false) :
    WholePrefixes node ↔ ∀ str result, Leads node str result → ∀ k, k + 1 < str.length →
      str[k]? = some 0 → ∃ other result', Leads node other result' ∧ other ≠ str ∧
        other.take k = str.take k := by
  induction h with
  | «end» result =>
    refine ⟨?_, fun _ => .end result⟩
    intro _ str result' hleads k hk
    rw [(leads_end_iff.1 hleads).1] at hk
    cases hk
  | tail n chars result hlength hpos =>
    have hleads : ∀ str result', Leads (.normal n [(chars, .end result)]) str result' →
        str = chars := by
      intro str result' hleads
      obtain ⟨p, hp, rest, rfl, hrest⟩ := leads_normal_iff.1 hleads
      rw [List.mem_singleton.1 hp] at hrest ⊢
      rw [(leads_end_iff.1 hrest).1]
      exact List.append_nil chars
    constructor
    · intro hwhole str result' hstr k hk hzero
      obtain rfl := hleads str result' hstr
      cases hwhole with
      | normal _ _ hchars _ =>
        refine absurd ?_ (hchars _ (List.mem_singleton_self _))
        have hget : str.dropLast[k]? = some 0 := by
          rw [List.getElem?_dropLast, if_pos (by omega)]
          exact hzero
        exact List.mem_of_getElem? hget
    · intro hstrings
      apply WholePrefixes.normal
      · intro p hp hzero
        have hzero : 0 ∈ chars.dropLast := by rwa [List.mem_singleton.1 hp] at hzero
        obtain ⟨k, hk, hget⟩ := List.getElem_of_mem hzero
        rw [List.length_dropLast] at hk
        rw [List.getElem_dropLast] at hget
        have hchars : Leads (.normal n [(chars, .end result)]) chars result := by
          simp [leads_normal_iff, leads_end_iff]
        obtain ⟨other, result', hother, hne, -⟩ := hstrings chars result hchars k (by omega)
          (by rw [List.getElem?_eq_getElem (by omega), hget])
        exact hne (hleads other result' hother)
      · intro p hp
        rw [List.mem_singleton.1 hp]
        exact .end result
  | chars prefixes n hnodup hchars hchildren hlive ih =>
    have hmerged := Merged.chars prefixes n hnodup hchars hchildren hlive
    have hjoin := joinShortPath_of_stable hstable
    have hchildStable := iterateNode_normal hjoin hstable
    constructor
    · intro hwhole str result hleads k hk hzero
      cases hwhole with
      | normal _ _ _ hwhole =>
        obtain ⟨p, hp, rest, rfl, hrest⟩ := leads_normal_iff.1 hleads
        obtain ⟨c, hc⟩ := hchars p hp
        rw [hc] at hk hzero
        cases k with
        | zero =>
          -- a single string would be joined to a single prefix
          by_contra hnone
          push Not at hnone
          have hone : ∀ other result', Leads (.normal 1 prefixes) other result' →
              other = p.1 ++ rest := by
            intro other result' hother
            by_contra hne
            exact hnone other result' hother hne (by simp)
          obtain ⟨len, chars, result', hsingle⟩ := hmerged.single hstable (Nat.succ_pos n)
            ⟨_, _, hleads⟩ fun str str' r r' hstr hstr' =>
              (hone str r hstr).trans (hone str' r' hstr').symm
          cases hsingle
          rw [List.mem_singleton.1 hp] at hrest
          rw [(leads_end_iff.1 hrest).1] at hk
          simp at hk
        | succ k =>
          obtain ⟨other, result', hother, hne, htake⟩ :=
            ((ih p hp (hchildStable p hp)).1 (hwhole p hp)) rest result hrest k
              (by simpa using hk) (by simpa using hzero)
          refine ⟨p.1 ++ other, result', leads_normal_iff.2 ⟨p, hp, other, rfl, hother⟩, ?_, ?_⟩
          · intro heq
            exact hne (List.append_cancel_left heq)
          · rw [hc, List.singleton_append, List.singleton_append, List.take_succ_cons,
              List.take_succ_cons, htake]
    · intro hstrings
      apply WholePrefixes.normal
      · intro p hp
        obtain ⟨c, hc⟩ := hchars p hp
        rw [hc]
        exact List.not_mem_nil
      · intro p hp
        rw [ih p hp (hchildStable p hp)]
        intro rest result hrest k hk hzero
        obtain ⟨c, hc⟩ := hchars p hp
        obtain ⟨other, result', hother, hne, htake⟩ := hstrings (p.1 ++ rest) result
          (leads_normal_iff.2 ⟨p, hp, rest, rfl, hrest⟩) (k + 1) (by rw [hc]; simpa using hk)
          (by rw [hc]; simpa using hzero)
        obtain ⟨q, hq, rest', rfl, hrest'⟩ := leads_normal_iff.1 hother
        obtain ⟨c', hc'⟩ := hchars q hq
        rw [hc, hc', List.singleton_append, List.singleton_append, List.take_succ_cons,
          List.take_succ_cons, List.cons.injEq] at htake
        obtain ⟨rfl, htake⟩ := htake
        obtain rfl := List.inj_on_of_nodup_map hnodup hq hp (hc'.trans hc.symm)
        exact ⟨rest', result', hrest', fun heq => hne (by rw [heq]), htake⟩

end SimpleServer.Hpack
