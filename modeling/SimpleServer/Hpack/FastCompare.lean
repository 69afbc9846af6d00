import SimpleServer.Hpack.Encode

/-!
# The generated comparison of strings (`tools/helper/src/hpack.ts`)

`processStringFastCompare` sorts the strings by their length. A single string of a length is
compared with `strncmp`; of several strings a tree over their characters is built, in which
`cleanupShortPathsFastCompare` joins the nodes of a path without branches. The arrays of nodes
and prefixes in the generated file are this tree, a node points to its prefixes and these to
their nodes.

* `fastStringCompareImpl`: the generated function for a list of strings.
* `hpackGeneratedFindInStaticTable`: the generated lookup in the static table.
-/

namespace SimpleServer.Hpack

/-- `strncmp(a, b, n) == 0`, where both strings end with a zero byte. -/
def strncmpEq : ℕ → Bytes → Bytes → Bool
  | 0, _, _ => true
  | n + 1, a, b =>
    a.headD 0 == b.headD 0 && (a.headD 0 == 0 || strncmpEq n a.tail b.tail)

/-- A node with the prefixes it goes on with, or the index of a string. -/
inductive FastStringCompareNode where
  | end (result : ℕ)
  | normal (prefixLen : ℕ) (prefixes : List (Bytes × FastStringCompareNode))

namespace FastStringCompareNode

theorem sizeOf_prefix_lt {prefixLen : ℕ} {prefixes : List (Bytes × FastStringCompareNode)}
    {p : Bytes × FastStringCompareNode} (h : p ∈ prefixes) :
    sizeOf p.2 < sizeOf (FastStringCompareNode.normal prefixLen prefixes) := by
  have hlt := List.sizeOf_lt_of_mem h
  obtain ⟨chars, node⟩ := p
  simp only [Prod.mk.sizeOf_spec, normal.sizeOf_spec] at hlt ⊢
  omega

/-! ## Building the tree -/

/-- One string is added to the tree, character by character; every prefix is one character
long. -/
def addCase (idx : ℕ) : Bytes → FastStringCompareNode → FastStringCompareNode
  | [], node => node
  -- "algorithmn error": all strings of a tree have the same length
  | _ :: _, .end result => .end result
  | charValue :: rest, .normal prefixLen prefixes =>
    match prefixes.findIdx? (fun p => p.1 == [charValue]) with
    | none =>
      let nextNode := if rest.length = 0 then .end idx else .normal 1 []
      .normal prefixLen (prefixes ++ [([charValue], addCase idx rest nextNode)])
    | some foundIndex =>
      .normal prefixLen (prefixes.modify foundIndex fun p => (p.1, addCase idx rest p.2))

/-- The number of nodes. -/
def nodeAmount : FastStringCompareNode → ℕ
  | .end _ => 1
  | .normal _ prefixes => 1 + (prefixes.map fun p => nodeAmount p.2).sum
decreasing_by exact sizeOf_prefix_lt ‹_›

/-- A node with a single prefix, whose node has a single prefix, which leads to an end. -/
def joinShortPath : ℕ → List (Bytes × FastStringCompareNode) → Option FastStringCompareNode
  | prefixLen, [(chars, .normal childLen [(childChars, .end result)])] =>
    some (.normal (childLen + prefixLen) [(chars ++ childChars, .end result)])
  | _, _ => none

/-- `iterateNode`: the tree after one traversal, and whether it changed. -/
def iterateNode : FastStringCompareNode → FastStringCompareNode × Bool
  | .end result => (.end result, false)
  | .normal prefixLen prefixes =>
    match joinShortPath prefixLen prefixes with
    | some joined => (joined, true)
    | none =>
      let results := prefixes.map fun p => (p.1, iterateNode p.2)
      (.normal prefixLen (results.map fun r => (r.1, r.2.1)), results.any fun r => r.2.2)
decreasing_by exact sizeOf_prefix_lt ‹_›

/-- The loop of `cleanupShortPathsFastCompare`; a traversal that changes the tree leaves fewer
nodes, so `fuel` is their number. -/
def cleanupLoop : ℕ → FastStringCompareNode → FastStringCompareNode
  | 0, root => root
  | fuel + 1, root =>
    let (root, changed) := iterateNode root
    if changed then cleanupLoop fuel root else root

def cleanupShortPathsFastCompare (root : FastStringCompareNode) : FastStringCompareNode :=
  cleanupLoop root.nodeAmount root

/-! ## Evaluating it -/

/-- The comparison of a prefix with the characters at the index. -/
def prefixMatches (prefixLen : ℕ) (str chars : Bytes) : Bool :=
  if prefixLen = 1 then str.headD 0 == chars.headD 0 else strncmpEq prefixLen str chars

/-- The loop of `fast_compare_string_with_tree`, on what is left of the string; `fuel` is its
length. -/
def compareLoop : ℕ → FastStringCompareNode → Bytes → Option ℕ
  | 0, _, _ => none
  | fuel + 1, node, str =>
    if str.length = 0 then none
    else
      match node with
      | .end result => some result
      | .normal prefixLen prefixes =>
        if prefixLen > str.length then none
        else
          match prefixes.find? fun p => prefixMatches prefixLen str p.1 with
          | none => none
          | some p =>
            if prefixLen = str.length then
              match p.2 with
              | .end result => some result
              | .normal _ _ => none
            else compareLoop fuel p.2 (str.drop prefixLen)

def fastCompareStringWithTree (root : FastStringCompareNode) (str : Bytes) : Option ℕ :=
  compareLoop str.length root str

end FastStringCompareNode

open FastStringCompareNode

/-- The strings of a length, with their indices. -/
def casesOfLength (input : List Bytes) (len : ℕ) : List (Bytes × ℕ) :=
  input.zipIdx.filter fun caze => caze.1.length = len

/-- The tree for several strings of the same length. -/
def treeOfCases (cazes : List (Bytes × ℕ)) : FastStringCompareNode :=
  cleanupShortPathsFastCompare
    (cazes.foldl (fun root caze => addCase caze.2 caze.1 root) (.normal 1 []))

/-- The root for the strings of a length. -/
def rootOfCases : List (Bytes × ℕ) → FastStringCompareNode
  | [caze] => .normal caze.1.length [(caze.1, .end caze.2)]
  | cazes => treeOfCases cazes

/-- `generateFastStringCompareImpl`: the generated function for a list of strings. -/
def fastStringCompareImpl (input : List Bytes) (str : Bytes) : Option ℕ :=
  match casesOfLength input str.length with
  | [] => none
  | [caze] => if strncmpEq str.length str caze.1 then some caze.2 else none
  | cazes => fastCompareStringWithTree (treeOfCases cazes) str

/-! ## The arrays -/

/-- A node in its array: an end, or the part of the array of prefixes that it goes on with. -/
inductive FastStringCmpNode where
  | end (result : ℕ)
  | normal (prefixLen offset len : ℕ)
deriving Repr, DecidableEq

/-- The arrays of a tree; a pointer to a node is the index of the node. -/
structure FastStringCmpTree where
  nodes : List FastStringCmpNode
  prefixes : List (Bytes × ℕ)
  root : ℕ
deriving Repr, DecidableEq

/-- A node object, known by the way that leads to it from the root. -/
abbrev NodeObject := List ℕ × FastStringCompareNode

def NodeObject.children : NodeObject → List NodeObject
  | (_, .end _) => []
  | (path, .normal _ prefixes) => prefixes.mapIdx fun j p => (path ++ [j], p.2)

/-- The loop that numbers the nodes, and that of `nodesAndPrefixesFromStrTree`: the nodes in the
order in which they are taken from the stack. The last child comes first. -/
def popNodes : ℕ → List NodeObject → List NodeObject
  | 0, _ => []
  | _ + 1, [] => []
  | fuel + 1, node :: stack => node :: popNodes fuel (node.children.reverse ++ stack)

/-- The nodes as they are written down, with their offsets into the array of prefixes. -/
def nodesToC : ℕ → List NodeObject → List FastStringCmpNode
  | _, [] => []
  | prefixOffset, (_, .end result) :: nodes => .end result :: nodesToC prefixOffset nodes
  | prefixOffset, (_, .normal prefixLen prefixes) :: nodes =>
    .normal prefixLen prefixOffset prefixes.length ::
      nodesToC (prefixOffset + prefixes.length) nodes

/-- The prefixes of a node as they are written down, `id` numbers the nodes. -/
def NodeObject.prefixesToC (id : List ℕ → ℕ) : NodeObject → List (Bytes × ℕ)
  | (_, .end _) => []
  | (path, .normal _ prefixes) => prefixes.mapIdx fun j p => (p.1, id (path ++ [j]))

/-- The arrays for a tree. A node has the number of its turn. -/
def nodesAndPrefixesFromStrTree (root : FastStringCompareNode) : FastStringCmpTree :=
  let nodes := popNodes root.nodeAmount [([], root)]
  let id (path : List ℕ) := (nodes.map Prod.fst).idxOf path
  ⟨nodesToC 0 nodes, nodes.flatMap (NodeObject.prefixesToC id), id []⟩

/-- `processStringFastCompare`: the tree for every length, unless a string is not ASCII or empty. -/
def processStringFastCompare (input : List Bytes) : Option (List (ℕ × FastStringCmpTree)) :=
  if ∃ inp ∈ input, (∃ c ∈ inp, 0x80 ≤ c) ∨ inp.length = 0 then none
  else some ((input.map List.length).eraseDups.map fun len =>
    (len, nodesAndPrefixesFromStrTree (rootOfCases (casesOfLength input len))))

/-- The loop of `fast_compare_string_with_tree` over the prefixes of a node; `none` is an access
outside of the array. -/
def findPrefix (tree : FastStringCmpTree) (prefixLen : ℕ) (str : Bytes) :
    ℕ → ℕ → Option (Option ℕ)
  | _, 0 => some none
  | offset, len + 1 =>
    match tree.prefixes[offset]? with
    | none => none
    | some p =>
      if prefixMatches prefixLen str p.1 then some (some p.2)
      else findPrefix tree prefixLen str (offset + 1) len

/-- The loop of `fast_compare_string_with_tree` on the arrays. -/
def compareArrays (tree : FastStringCmpTree) : ℕ → ℕ → Bytes → Option (Option ℕ)
  | 0, _, _ => some none
  | fuel + 1, node, str =>
    if str.length = 0 then some none
    else
      match tree.nodes[node]? with
      | none => none
      | some (.end result) => some (some result)
      | some (.normal prefixLen offset len) =>
        if prefixLen > str.length then some none
        else
          match findPrefix tree prefixLen str offset len with
          | none => none
          | some none => some none
          | some (some next) =>
            if prefixLen = str.length then
              match tree.nodes[next]? with
              | none => none
              | some (.end result) => some (some result)
              | some (.normal _ _ _) => some none
            else compareArrays tree fuel next (str.drop prefixLen)

/-- The tree for the length of the string is evaluated. -/
def compareStrings (trees : List (ℕ × FastStringCmpTree)) (str : Bytes) : Option (Option ℕ) :=
  match trees.find? fun tree => tree.1 == str.length with
  | none => some none
  | some tree => compareArrays tree.2 str.length tree.2.root str

/-! ## The static table -/

/-- `keyOfStaticTable`. -/
def keyOfStaticTable : List Bytes := (hpackStaticHeaderTableEntries.map Prod.fst).eraseDups

/-- `hpack_generated_find_in_static_table_fast`, one case for each key. -/
def hpackGeneratedFindInStaticTable (field : HttpHeaderField) : TableFindResult :=
  match fastStringCompareImpl keyOfStaticTable field.key with
  | none => .notFound
  | some idx =>
    match keyOfStaticTable[idx]? with
    -- default: assert(false)
    | none => .notFound
    | some key =>
      match staticTableRows key with
      | [] => .notFound
      | [(index, none)] => .keyFound index
      | [(index, some value)] =>
        if strncmpEq value.length field.value value then .allFound index else .keyFound index
      | rows =>
        match fastStringCompareImpl (rows.map fun r => r.2.getD []) field.value with
        | some i => .allFound ((rows.map Prod.fst).getD i 0)
        | none => .keyFound ((rows.map Prod.fst).getD 0 0)

end SimpleServer.Hpack
