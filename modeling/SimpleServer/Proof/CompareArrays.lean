import SimpleServer.Hpack.FastCompare

/-!
# The arrays hold the tree

The generated file writes a tree down as an array of nodes and one of prefixes. A node has the
number of its turn in the loop over the stack, and its prefixes stand together. The comparison on
the arrays goes where the one on the tree goes, and never leaves the arrays.

* `Represents`: a node of the arrays stands for a node of the tree.
* `represents_root`: **the arrays that are written hold the tree**.
* `compareArrays_eq`: the comparison on the arrays is the one on the tree.
-/

namespace SimpleServer.Hpack

open FastStringCompareNode

variable {tree : FastStringCmpTree} {root node : FastStringCompareNode} {stack : List NodeObject}
  {object : NodeObject} {fuel : ℕ} {path : List ℕ} {prefixLen : ℕ}
  {prefixes : List (Bytes × FastStringCompareNode)}

/-! ## What the arrays stand for -/

/-- The node with a number stands for a node of a tree. -/
inductive Represents (tree : FastStringCmpTree) : ℕ → FastStringCompareNode → Prop
  | end (id result : ℕ) : tree.nodes[id]? = some (.end result) → Represents tree id (.end result)
  | normal (id prefixLen offset : ℕ) (prefixes : List (Bytes × FastStringCompareNode))
      (children : ℕ → ℕ) :
      tree.nodes[id]? = some (.normal prefixLen offset prefixes.length) →
      (∀ (j : ℕ) (h : j < prefixes.length),
        tree.prefixes[offset + j]? = some (prefixes[j].1, children j)) →
      (∀ (j : ℕ) (h : j < prefixes.length), Represents tree (children j) prefixes[j].2) →
      Represents tree id (.normal prefixLen prefixes)

/-- The loop over the prefixes of a node, from one of them on. -/
theorem findPrefix_eq {str : Bytes} {offset : ℕ} {children : ℕ → ℕ}
    (h : ∀ (j : ℕ) (h : j < prefixes.length),
      tree.prefixes[offset + j]? = some (prefixes[j].1, children j)) :
    findPrefix tree prefixLen str offset prefixes.length =
      some ((prefixes.findIdx? fun p => prefixMatches prefixLen str p.1).map children) := by
  induction prefixes generalizing offset children with
  | nil => rfl
  | cons p prefixes ih =>
    have hfirst := h 0 (Nat.succ_pos _)
    have hrest : ∀ (j : ℕ) (hj : j < prefixes.length),
        tree.prefixes[offset + 1 + j]? = some (prefixes[j].1, children (j + 1)) := by
      intro j hj
      have hnext := h (j + 1) (Nat.succ_lt_succ hj)
      rwa [Nat.add_assoc, Nat.add_comm 1 j]
    rw [Nat.add_zero, List.getElem_cons_zero] at hfirst
    rw [List.length_cons, findPrefix, hfirst, List.findIdx?_cons]
    dsimp only
    split_ifs
    · rfl
    · rw [ih hrest, Option.map_map]
      rfl

/-- **The comparison on the arrays** is the one on the tree, and stays inside them. -/
theorem compareArrays_eq {id : ℕ} (h : Represents tree id node) (fuel : ℕ) (str : Bytes) :
    compareArrays tree fuel id str = some (compareLoop fuel node str) := by
  induction fuel generalizing id node str with
  | zero => rfl
  | succ fuel ih =>
    unfold compareArrays compareLoop
    by_cases hempty : str.length = 0
    · rw [if_pos hempty, if_pos hempty]
    · rw [if_neg hempty, if_neg hempty]
      cases h with
      | «end» _ result hnode => rw [hnode]
      | normal _ prefixLen offset prefixes children hnode hprefixes hchildren =>
        rw [hnode]
        dsimp only
        by_cases hlong : prefixLen > str.length
        · rw [if_pos hlong, if_pos hlong]
        · rw [if_neg hlong, if_neg hlong, findPrefix_eq hprefixes]
          cases hfind : prefixes.findIdx? fun p => prefixMatches prefixLen str p.1 with
          | none =>
            have hnone : (prefixes.find? fun p => prefixMatches prefixLen str p.1) = none := by
              rw [List.find?_eq_none]
              rw [List.findIdx?_eq_none_iff] at hfind
              intro p hp
              rw [hfind p hp]
              exact Bool.false_ne_true
            rw [hnone]
            rfl
          | some j =>
            obtain ⟨hj, -, -⟩ := List.findIdx?_eq_some_iff_getElem.1 hfind
            have hsome : (prefixes.find? fun p => prefixMatches prefixLen str p.1) =
                some prefixes[j] := by
              rw [List.find?_eq_bind_findIdx?_getElem?, hfind]
              exact List.getElem?_eq_getElem hj
            rw [hsome]
            dsimp only [Option.map_some]
            by_cases hend : prefixLen = str.length
            · rw [if_pos hend, if_pos hend]
              cases hchild : prefixes[j].2 with
              | «end» result =>
                have hrep := hchildren j hj
                rw [hchild] at hrep
                cases hrep with
                | «end» _ _ hnode' => rw [hnode']
              | normal prefixLen' prefixes' =>
                have hrep := hchildren j hj
                rw [hchild] at hrep
                cases hrep with
                | normal _ _ _ _ _ hnode' _ _ => rw [hnode']
            · rw [if_neg hend, if_neg hend]
              exact ih (hchildren j hj) _

/-! ## The loop over the stack -/

/-- The node that a way leads to. -/
def nodeAt : List ℕ → FastStringCompareNode → Option FastStringCompareNode
  | [], node => some node
  | _ :: _, .end _ => none
  | j :: path, .normal _ prefixes => (prefixes[j]?).bind fun p => nodeAt path p.2

theorem nodeAt_append (path : List ℕ) (j : ℕ) (root : FastStringCompareNode) :
    nodeAt (path ++ [j]) root = (nodeAt path root).bind fun node => nodeAt [j] node := by
  induction path generalizing root with
  | nil => rfl
  | cons i path ih =>
    cases root with
    | «end» result => rfl
    | normal prefixLen prefixes =>
      simp only [List.cons_append, nodeAt]
      cases prefixes[i]? with
      | none => rfl
      | some p => exact ih p.2

/-- The objects are the nodes of the tree. -/
def InTree (root : FastStringCompareNode) (objects : List NodeObject) : Prop :=
  ∀ object ∈ objects, nodeAt object.1 root = some object.2

theorem inTree_children (h : nodeAt object.1 root = some object.2) :
    InTree root object.children := by
  obtain ⟨path, node⟩ := object
  have hat : nodeAt path root = some node := h
  cases node with
  | «end» result => exact fun _ hmem => nomatch hmem
  | normal prefixLen prefixes =>
    intro child hchild
    obtain ⟨j, hj, rfl⟩ := List.mem_mapIdx.1 hchild
    rw [nodeAt_append, hat, Option.bind_some]
    simp only [nodeAt]
    rw [List.getElem?_eq_getElem hj]
    rfl

theorem inTree_popNodes (h : InTree root stack) : InTree root (popNodes fuel stack) := by
  induction fuel generalizing stack with
  | zero => exact fun _ hmem => nomatch hmem
  | succ fuel ih =>
    cases stack with
    | nil => exact fun _ hmem => nomatch hmem
    | cons object stack =>
      have hfirst := h object List.mem_cons_self
      have hrest : InTree root (object.children.reverse ++ stack) := by
        intro other hmem
        rcases List.mem_append.1 hmem with hmem | hmem
        · exact inTree_children hfirst other (List.mem_reverse.1 hmem)
        · exact h other (List.mem_cons_of_mem _ hmem)
      intro other hmem
      rw [popNodes] at hmem
      rcases List.mem_cons.1 hmem with rfl | hmem
      · exact hfirst
      · exact ih hrest other hmem

/-- The number of nodes below the objects of a stack. -/
def stackAmount (stack : List NodeObject) : ℕ := (stack.map fun object => object.2.nodeAmount).sum

theorem stackAmount_append (first second : List NodeObject) :
    stackAmount (first ++ second) = stackAmount first + stackAmount second := by
  rw [stackAmount, List.map_append, List.sum_append]
  rfl

/-- A node and those below its children. -/
theorem nodeAmount_children (object : NodeObject) :
    object.2.nodeAmount = 1 + stackAmount object.children := by
  obtain ⟨path, node⟩ := object
  cases node with
  | «end» result =>
    simp only [nodeAmount, NodeObject.children]
    rfl
  | normal prefixLen prefixes =>
    have hsame :
        (prefixes.mapIdx fun j p => (path ++ [j], p.2)).map (fun child => child.2.nodeAmount) =
        prefixes.map fun p => p.2.nodeAmount := by
      apply List.ext_getElem
      · simp
      · simp
    simp only [nodeAmount, NodeObject.children, stackAmount]
    rw [hsame]

/-- With fuel for every node, the loop takes all objects of the stack and all their children. -/
theorem popNodes_complete (hfuel : stackAmount stack ≤ fuel) :
    (∀ object ∈ stack, object ∈ popNodes fuel stack) ∧
      ∀ object ∈ popNodes fuel stack, ∀ child ∈ object.children, child ∈ popNodes fuel stack := by
  induction fuel generalizing stack with
  | zero =>
    cases stack with
    | nil => exact ⟨fun _ hmem => (nomatch hmem), fun _ hmem => (nomatch hmem)⟩
    | cons object stack =>
      have hamount := nodeAmount_children object
      simp only [stackAmount, List.map_cons, List.sum_cons] at hfuel
      omega
  | succ fuel ih =>
    cases stack with
    | nil => exact ⟨fun _ hmem => (nomatch hmem), fun _ hmem => (nomatch hmem)⟩
    | cons object stack =>
      have hamount := nodeAmount_children object
      have hrest : stackAmount (object.children.reverse ++ stack) ≤ fuel := by
        have hreverse : stackAmount object.children.reverse = stackAmount object.children := by
          rw [stackAmount, List.map_reverse, List.sum_reverse]
          rfl
        rw [stackAmount_append, hreverse]
        simp only [stackAmount, List.map_cons, List.sum_cons] at hfuel hamount ⊢
        omega
      obtain ⟨hstack, hclosed⟩ := ih hrest
      rw [popNodes]
      refine ⟨?_, ?_⟩
      · intro other hmem
        rcases List.mem_cons.1 hmem with rfl | hmem
        · exact List.mem_cons_self
        · exact List.mem_cons_of_mem _ (hstack other (List.mem_append_right _ hmem))
      · intro other hmem child hchild
        rcases List.mem_cons.1 hmem with rfl | hmem
        · exact List.mem_cons_of_mem _
            (hstack child (List.mem_append_left _ (List.mem_reverse.2 hchild)))
        · exact List.mem_cons_of_mem _ (hclosed other hmem child hchild)

/-! ## The arrays -/

/-- The number of prefixes that a node writes down. -/
def prefixAmount : List NodeObject → ℕ
  | [] => 0
  | (_, .end _) :: nodes => prefixAmount nodes
  | (_, .normal _ prefixes) :: nodes => prefixes.length + prefixAmount nodes

theorem prefixAmount_eq (id : List ℕ → ℕ) (nodes : List NodeObject) :
    (nodes.flatMap (NodeObject.prefixesToC id)).length = prefixAmount nodes := by
  induction nodes with
  | nil => rfl
  | cons object nodes ih =>
    obtain ⟨path, node⟩ := object
    rw [List.flatMap_cons, List.length_append, ih]
    cases node with
    | «end» result => exact Nat.zero_add _
    | normal prefixLen prefixes =>
      rw [NodeObject.prefixesToC, List.length_mapIdx]
      rfl

/-- What is written for the node that is taken after others. -/
theorem nodesToC_getElem? (offset : ℕ) (before after : List NodeObject) (object : NodeObject) :
    (nodesToC offset (before ++ object :: after))[before.length]? =
      (nodesToC (offset + prefixAmount before) [object])[0]? := by
  induction before generalizing offset with
  | nil =>
    obtain ⟨path, node⟩ := object
    cases node <;> rfl
  | cons first before ih =>
    obtain ⟨path, node⟩ := first
    cases node with
    | «end» result =>
      simp only [List.cons_append, nodesToC, List.length_cons, List.getElem?_cons_succ,
        prefixAmount]
      exact ih offset
    | normal prefixLen prefixes =>
      simp only [List.cons_append, nodesToC, List.length_cons, List.getElem?_cons_succ,
        prefixAmount]
      rw [ih, Nat.add_assoc]

/-- Where a node stands in the order in which they are taken: at its number. -/
theorem split_of_mem {nodes : List NodeObject} (hin : InTree root nodes) (hmem : object ∈ nodes) :
    ∃ before after, nodes = before ++ object :: after ∧
      before.length = (nodes.map Prod.fst).idxOf object.1 := by
  have hlt := List.idxOf_lt_length_iff.2 (List.mem_map_of_mem (f := Prod.fst) hmem)
  have hlt' : (nodes.map Prod.fst).idxOf object.1 < nodes.length := by
    rwa [List.length_map] at hlt
  have hobject : nodes[(nodes.map Prod.fst).idxOf object.1] = object := by
    have hfst : (nodes[(nodes.map Prod.fst).idxOf object.1]).1 = object.1 := by
      have hget := List.getElem_idxOf hlt
      rwa [List.getElem_map] at hget
    -- one way leads to one node
    have hat := hin _ (List.getElem_mem hlt')
    rw [hfst, hin _ hmem] at hat
    exact Prod.ext hfst (Option.some.inj hat).symm
  have hdrop := List.drop_eq_getElem_cons hlt'
  rw [hobject] at hdrop
  refine ⟨nodes.take ((nodes.map Prod.fst).idxOf object.1),
    nodes.drop ((nodes.map Prod.fst).idxOf object.1 + 1), ?_, List.length_take_of_le hlt'.le⟩
  rw [← hdrop, List.take_append_drop]

/-- Every node that was taken is represented under its number. -/
theorem represents_of_mem {nodes : List NodeObject} (hin : InTree root nodes)
    (hclosed : ∀ object ∈ nodes, ∀ child ∈ object.children, child ∈ nodes) (first : ℕ)
    (hmem : (path, node) ∈ nodes) :
    Represents ⟨nodesToC 0 nodes, nodes.flatMap (NodeObject.prefixesToC fun path =>
        (nodes.map Prod.fst).idxOf path), first⟩ ((nodes.map Prod.fst).idxOf path) node := by
  induction node using nodeAmount.induct generalizing path with
  | case1 result =>
    obtain ⟨before, after, hsplit, hlength⟩ := split_of_mem hin hmem
    have hnode := nodesToC_getElem? 0 before after (path, .end result)
    rw [← hsplit, hlength] at hnode
    exact .end _ _ hnode
  | case2 prefixLen prefixes ih =>
    obtain ⟨before, after, hsplit, hlength⟩ := split_of_mem hin hmem
    have hnode := nodesToC_getElem? 0 before after (path, .normal prefixLen prefixes)
    rw [← hsplit, hlength, Nat.zero_add] at hnode
    refine .normal _ prefixLen (prefixAmount before) prefixes
      (fun j => (nodes.map Prod.fst).idxOf (path ++ [j])) hnode ?_ ?_
    · intro j hj
      generalize hid : (fun path => (nodes.map Prod.fst).idxOf path) = id
      have hwritten : nodes.flatMap (NodeObject.prefixesToC id) =
          before.flatMap (NodeObject.prefixesToC id) ++
            (prefixes.mapIdx (fun j p => (p.1, id (path ++ [j]))) ++
              after.flatMap (NodeObject.prefixesToC id)) := by
        conv_lhs => rw [hsplit]
        rw [List.flatMap_append, List.flatMap_cons]
        rfl
      have hchild : (nodes.map Prod.fst).idxOf (path ++ [j]) = id (path ++ [j]) := by rw [← hid]
      dsimp only
      rw [hwritten, ← prefixAmount_eq id before, List.getElem?_append_right (Nat.le_add_right _ _),
        Nat.add_sub_cancel_left, List.getElem?_append_left (by rwa [List.length_mapIdx]),
        List.getElem?_mapIdx, List.getElem?_eq_getElem hj, hchild]
      rfl
    · intro j hj
      apply ih prefixes[j] (List.getElem_mem hj)
      exact hclosed _ hmem _ (List.mem_mapIdx.2 ⟨j, hj, rfl⟩)

/-- **The arrays that are written hold the tree.** -/
theorem represents_root (root : FastStringCompareNode) :
    Represents (nodesAndPrefixesFromStrTree root) (nodesAndPrefixesFromStrTree root).root root := by
  have hstack : InTree root [([], root)] := by
    intro object hmem
    rw [List.mem_singleton.1 hmem]
    rfl
  have hfuel : stackAmount [([], root)] ≤ root.nodeAmount := by
    rw [stackAmount, List.map_singleton, List.sum_singleton]
  obtain ⟨htaken, hclosed⟩ := popNodes_complete hfuel
  exact represents_of_mem (inTree_popNodes hstack) hclosed _
    (htaken ([], root) (List.mem_singleton_self _))

/-- **The comparison follows the arrays** of a tree as it does the tree. -/
theorem compareArrays_root (root : FastStringCompareNode) (str : Bytes) :
    compareArrays (nodesAndPrefixesFromStrTree root) str.length
      (nodesAndPrefixesFromStrTree root).root str = some (fastCompareStringWithTree root str) :=
  compareArrays_eq (represents_root root) str.length str

end SimpleServer.Hpack
