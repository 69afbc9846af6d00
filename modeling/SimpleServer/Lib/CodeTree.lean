import Mathlib.Tactic

/-!
# Binary code trees

A `CodeTree` holds values at its leaves; a code word is the path from the root
to a leaf. `decode` follows a bit string from the root and starts again at the
root at every leaf.

* `decode_code`: reading one code word that leads to a leaf yields its value.
* `decode_codes`: reading the code words of a list of values yields the list,
  whatever bits follow.
* `decode_words`: every string that decodes is made of code words and a rest that ends
  inside the tree.
* `Full.walk_cases`: in a tree without empty places, every string stays inside the tree or
  begins with a code word.
-/

namespace Lib

variable {α β : Type}

/-- A binary tree with values at the leaves; `empty` is a place not filled yet. -/
inductive CodeTree (α : Type) where
  | empty
  | leaf (a : α)
  | node (zero one : CodeTree α)
deriving Repr, DecidableEq

namespace CodeTree

/-- The child of an inner node for one bit. -/
def child : CodeTree α → Bool → Option (CodeTree α)
  | node zero one, b => some (if b then one else zero)
  | _, _ => none

/-- Follow a word from a node; every node on the way has to be an inner one. -/
def walk : CodeTree α → List Bool → Option (CodeTree α)
  | t, [] => some t
  | t, b :: bs => (t.child b).bind fun c => c.walk bs

/-- Whether a tree is an inner node. -/
def isNode : CodeTree α → Bool
  | node _ _ => true
  | _ => false

/-- Read `bits` from node `cur`, collecting the values of the leaves; `none` when
an empty place or a missing child is reached. The second component is the node
where the bits end. -/
def decode (root : CodeTree α) : CodeTree α → List Bool → Option (List α × CodeTree α)
  | cur, [] => some ([], cur)
  | cur, b :: bs =>
    match cur.child b with
    | none => none
    | some empty => none
    | some (leaf a) => (decode root root bs).map fun r => (a :: r.1, r.2)
    | some (node l r) => decode root (node l r) bs

/-- **One code word.** A word that leads from `cur` to a leaf yields its value. -/
theorem decode_code (root : CodeTree α) {a : α} (rest : List Bool) :
    ∀ (w : List Bool) (cur : CodeTree α), cur.isNode = true → cur.walk w = some (leaf a) →
      decode root cur (w ++ rest) = (decode root root rest).map fun r => (a :: r.1, r.2) := by
  intro w
  induction w with
  | nil =>
    intro cur hn hw
    simp only [walk, Option.some.injEq] at hw
    subst hw; simp [isNode] at hn
  | cons b w ih =>
    intro cur _ hw
    simp only [walk] at hw
    simp only [List.cons_append, decode]
    cases hc : cur.child b with
    | none => rw [hc] at hw; simp at hw
    | some c =>
      rw [hc] at hw
      simp only [Option.bind_some] at hw
      cases c with
      | empty => cases w <;> simp [walk, child] at hw
      | leaf a' =>
        -- the word ends at the first leaf it meets
        cases w with
        | nil => simp only [walk, Option.some.injEq, leaf.injEq] at hw; subst hw; rfl
        | cons b' w => simp [walk, child] at hw
      | node l r => exact ih (node l r) rfl hw

/-- **Unique decoding.** The words of a list of values, one after the other, decode
to the list. -/
theorem decode_codes (root : CodeTree α) (hroot : root.isNode = true) (code : β → List Bool)
    (val : β → α) (hcode : ∀ x, root.walk (code x) = some (leaf (val x))) (rest : List Bool) :
    ∀ xs : List β, decode root root (xs.flatMap code ++ rest) =
      (decode root root rest).map fun r => (xs.map val ++ r.1, r.2) := by
  intro xs
  induction xs with
  | nil => simp
  | cons x xs ih =>
    rw [List.flatMap_cons, List.append_assoc, decode_code root _ (code x) root hroot (hcode x), ih]
    simp [Function.comp_def]

/-- A tail that stays inside the tree decodes to nothing more. -/
theorem decode_tail (root : CodeTree α) {c : CodeTree α} :
    ∀ (bs : List Bool) (cur : CodeTree α), cur.walk bs = some c → c.isNode = true →
      decode root cur bs = some ([], c) := by
  intro bs
  induction bs with
  | nil => intro cur hw _; simp only [walk, Option.some.injEq] at hw; subst hw; rfl
  | cons b bs ih =>
    intro cur hw hc
    simp only [walk] at hw
    simp only [decode]
    cases h : cur.child b with
    | none => rw [h] at hw; simp at hw
    | some d =>
      rw [h] at hw
      simp only [Option.bind_some] at hw
      cases d with
      | node l r => exact ih (node l r) hw hc
      | empty => cases bs <;> simp [walk, child] at hw; subst hw; simp [isNode] at hc
      | leaf a => cases bs <;> simp [walk, child] at hw; subst hw; simp [isNode] at hc

/-! ## Strings that decode -/

/-- No place of the tree is empty. -/
def Full : CodeTree α → Bool
  | empty => false
  | leaf _ => true
  | node zero one => zero.Full && one.Full

/-- The code words of a tree, with their values. -/
def words : CodeTree α → List (List Bool × α)
  | empty => []
  | leaf a => [([], a)]
  | node zero one =>
    zero.words.map (fun p => (false :: p.1, p.2)) ++ one.words.map fun p => (true :: p.1, p.2)

theorem walk_append (t : CodeTree α) (u v : List Bool) :
    t.walk (u ++ v) = (t.walk u).bind fun c => c.walk v := by
  induction u generalizing t with
  | nil => simp [walk]
  | cons b u ih =>
    simp only [List.cons_append, walk]
    cases t.child b with
    | none => rfl
    | some c => simp [ih]

/-- A word that leads to a leaf is one of the code words. -/
theorem mem_words {a : α} (t : CodeTree α) (w : List Bool) (h : t.walk w = some (leaf a)) :
    (w, a) ∈ t.words := by
  induction t generalizing w with
  | empty => cases w <;> simp [walk, child] at h
  | leaf b =>
    cases w with
    | nil =>
      simp only [walk, Option.some.injEq, leaf.injEq] at h
      simp [words, h]
    | cons b' w => simp [walk, child] at h
  | node zero one ihzero ihone =>
    cases w with
    | nil => simp [walk] at h
    | cons b w =>
      simp only [walk, child, Option.bind_some] at h
      cases b with
      | false =>
        have := ihzero w h
        simp [words, this]
      | true =>
        have := ihone w h
        simp [words, this]

/-- A full tree is not left: a string stays at inner nodes, or a beginning of it leads to a
leaf. -/
theorem Full.walk_cases (t : CodeTree α) (hfull : t.Full = true) (hnode : t.isNode = true)
    (bits : List Bool) :
    (∃ c, t.walk bits = some c ∧ c.isNode = true) ∨
      ∃ w rest a, bits = w ++ rest ∧ t.walk w = some (leaf a) := by
  induction bits generalizing t with
  | nil => exact Or.inl ⟨t, rfl, hnode⟩
  | cons b bits ih =>
    cases t with
    | empty => simp [isNode] at hnode
    | leaf a => simp [isNode] at hnode
    | node zero one =>
      simp only [Full, Bool.and_eq_true] at hfull
      have hchild : (if b then one else zero).Full = true := by
        cases b
        · exact hfull.1
        · exact hfull.2
      have hwalk : ∀ w, (node zero one).walk (b :: w) = (if b then one else zero).walk w := by
        intro w
        simp [walk, child]
      cases hc : (if b then one else zero) with
      | empty => simp [hc, Full] at hchild
      | leaf a => exact Or.inr ⟨[b], bits, a, rfl, by rw [hwalk, hc]; rfl⟩
      | node zero' one' =>
        rw [hc] at hchild
        rcases ih (node zero' one') hchild rfl with ⟨c, hstay, hcnode⟩ | ⟨w, rest, a, hbits, hleaf⟩
        · exact Or.inl ⟨c, by rw [hwalk, hc]; exact hstay, hcnode⟩
        · exact Or.inr ⟨b :: w, rest, a, by rw [hbits]; rfl, by rw [hwalk, hc]; exact hleaf⟩

/-- The first word of a string that decodes to something, or the whole string, which stays
inside the tree. -/
theorem decode_first (root : CodeTree α) {values : List α} {c : CodeTree α} :
    ∀ (bits : List Bool) (cur : CodeTree α), cur.isNode = true →
      decode root cur bits = some (values, c) →
      (values = [] ∧ cur.walk bits = some c ∧ c.isNode = true) ∨
        ∃ w rest a tail, bits = w ++ rest ∧ values = a :: tail ∧
          cur.walk w = some (leaf a) ∧ decode root root rest = some (tail, c) := by
  intro bits
  induction bits with
  | nil =>
    intro cur hnode h
    simp only [decode, Option.some.injEq, Prod.mk.injEq] at h
    obtain ⟨rfl, rfl⟩ := h
    exact Or.inl ⟨rfl, rfl, hnode⟩
  | cons b bits ih =>
    intro cur hnode h
    simp only [decode] at h
    cases hchild : cur.child b with
    | none => simp [hchild] at h
    | some d =>
      have hwalk : ∀ w, cur.walk (b :: w) = d.walk w := by
        intro w
        simp [walk, hchild]
      rw [hchild] at h
      cases d with
      | empty => simp at h
      | leaf a =>
        obtain ⟨⟨tail, c'⟩, hrest, heq⟩ := Option.map_eq_some_iff.1 h
        simp only [Prod.mk.injEq] at heq
        obtain ⟨rfl, rfl⟩ := heq
        exact Or.inr ⟨[b], bits, a, tail, rfl, rfl, by rw [hwalk]; rfl, hrest⟩
      | node zero one =>
        rcases ih (node zero one) rfl h with ⟨hnil, hstay, hc⟩ |
          ⟨w, rest, a, tail, hbits, hvalues, hleaf, hrest⟩
        · exact Or.inl ⟨hnil, by rw [hwalk]; exact hstay, hc⟩
        · exact Or.inr ⟨b :: w, rest, a, tail, by rw [hbits]; rfl, hvalues,
            by rw [hwalk]; exact hleaf, hrest⟩

/-- **What decodes** is made of code words, and a rest that ends inside the tree. -/
theorem decode_words (root : CodeTree α) (hroot : root.isNode = true) (code : α → List Bool)
    (hcode : ∀ w a, root.walk w = some (leaf a) → w = code a) {c : CodeTree α} :
    ∀ (values : List α) (bits : List Bool), decode root root bits = some (values, c) →
      ∃ tail, bits = values.flatMap code ++ tail ∧ root.walk tail = some c ∧ c.isNode = true := by
  intro values
  induction values with
  | nil =>
    intro bits h
    rcases decode_first root bits root hroot h with ⟨-, hstay, hc⟩ | ⟨w, rest, a, tail, -, hv, -⟩
    · exact ⟨bits, by simp, hstay, hc⟩
    · simp at hv
  | cons a values ih =>
    intro bits h
    rcases decode_first root bits root hroot h with ⟨hv, -⟩ |
      ⟨w, rest, a', tail, hbits, hv, hleaf, hrest⟩
    · simp at hv
    · obtain ⟨rfl, rfl⟩ := List.cons.inj hv
      obtain ⟨tail, hsplit, hstay, hc⟩ := ih rest hrest
      refine ⟨tail, ?_, hstay, hc⟩
      rw [hbits, hsplit, hcode w a hleaf]
      simp

end CodeTree

end Lib
