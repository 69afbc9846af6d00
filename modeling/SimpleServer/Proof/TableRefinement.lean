import SimpleServer.Proof.TableAccounting

/-!
# The ring buffer of the dynamic table is a double-ended list

`dynamic_hpack_table.c` offers four operations on its cyclic buffer. On the list model
(`dequeStep`) they are `::`, dropping the last element, indexing and clearing.

* `freeEntries_ring`: freeing the table frees each of its entries once.
* `ringStep_refines`: one operation answers as on the list, and keeps the shape of the
  buffer (`Shaped`): its capacity is zero or 32 doubled some times.
* `ringBuffer_refines`: so does every sequence of operations on the empty table.
-/

namespace SimpleServer.Hpack

open Lib

/-- A call of one of the four operations. -/
inductive RingOp
  | insertAtStart (entry : HpackHeaderDynamicEntry)
  | popAtEnd
  | at (index : ℕ)
  | free

/-- What a call gives back: whether the entry was inserted, an entry if there is one, or the
entries that were freed. -/
inductive RingAnswer
  | inserted (success : Bool)
  | entry (result : Option HpackHeaderDynamicEntry)
  | freed (entries : List HpackHeaderDynamicEntry)
deriving Repr, DecidableEq

/-- A call on the table; the allocation of an insertion succeeds. -/
def ringStep (t : HpackHeaderDynamicTable) : RingOp → HpackHeaderDynamicTable × RingAnswer
  | .insertAtStart entry => (hpackDynamicTableInsertAtStart t entry, .inserted true)
  | .popAtEnd =>
    match hpackDynamicTablePopAtEnd t with
    | none => (t, .entry none)
    | some (entry, table) => (table, .entry (some entry))
  | .at index => (t, .entry (hpackDynamicTableAt t index))
  | .free => (hpackDynamicTableFree t, .freed (freeEntries t t.count t.start))

/-- The same call on a list. -/
def dequeStep (l : List HpackHeaderDynamicEntry) : RingOp →
    List HpackHeaderDynamicEntry × RingAnswer
  | .insertAtStart entry => (entry :: l, .inserted true)
  | .popAtEnd => (l.dropLast, .entry l.getLast?)
  | .at index => (l, .entry l[index]?)
  | .free => ([], .freed l)

/-! ## Capacities -/

/-- Zero, or the start size doubled some times. -/
def CapacityOk (capacity : ℕ) : Prop := capacity = 0 ∨ ∃ k, capacity = 32 * 2 ^ k

theorem capacityOk_grow {capacity : ℕ} (h : CapacityOk capacity) :
    CapacityOk (implCalcGrow capacity) := by
  unfold implCalcGrow implStartSize
  rcases h with rfl | ⟨k, rfl⟩
  · exact Or.inr ⟨0, rfl⟩
  · have hpos : 32 * 2 ^ k ≠ 0 := by positivity
    rw [if_neg hpos]
    exact Or.inr ⟨k + 1, by ring⟩

/-- Halving a capacity that does not fall below the start size. -/
theorem capacityOk_shrink {capacity : ℕ} (h : CapacityOk capacity)
    (hlarge : ¬ implCalcShrink capacity < implStartSize) :
    CapacityOk (implCalcShrink capacity) := by
  unfold implCalcShrink implStartSize at *
  rcases h with rfl | ⟨k, rfl⟩
  · omega
  · cases k with
    | zero => simp at hlarge
    | succ k =>
      have hhalf : 32 * 2 ^ (k + 1) / 2 = 32 * 2 ^ k := by
        rw [pow_succ]
        omega
      rw [hhalf]
      exact Or.inr ⟨k, rfl⟩

/-- The buffer has the shape of a ring, and a capacity it can come to. -/
structure Shaped (t : HpackHeaderDynamicTable) : Prop where
  ring : RingOk t
  capacity : CapacityOk t.capacity

variable {t : HpackHeaderDynamicTable}

theorem shaped_empty : Shaped hpackDynamicTableGetEmpty := ⟨ringOk_empty, Or.inl rfl⟩

theorem insertAtStart_capacity (h : CapacityOk t.capacity) (entry : HpackHeaderDynamicEntry) :
    CapacityOk (hpackDynamicTableInsertAtStart t entry).capacity := by
  show CapacityOk (hpackDynamicTableGrow t).capacity
  unfold hpackDynamicTableGrow
  split_ifs
  · exact capacityOk_grow h
  · exact h

theorem shrink_capacity (h : CapacityOk t.capacity) :
    CapacityOk (hpackDynamicTableShrink t).capacity := by
  unfold hpackDynamicTableShrink
  by_cases hshrink : implShouldShrink t.count t.capacity
  · rw [if_pos hshrink]
    dsimp only
    by_cases hsmall : implCalcShrink t.capacity < implStartSize
    · rw [if_pos hsmall]
      exact h
    · rw [if_neg hsmall]
      exact capacityOk_shrink h hsmall
  · rw [if_neg hshrink]
    exact h

theorem popAtEnd_capacity (h : CapacityOk t.capacity) {entry : HpackHeaderDynamicEntry}
    {table : HpackHeaderDynamicTable}
    (hpop : hpackDynamicTablePopAtEnd t = some (entry, table)) : CapacityOk table.capacity := by
  unfold hpackDynamicTablePopAtEnd at hpop
  split_ifs at hpop
  cases hpop
  exact shrink_capacity h

/-! ## The operations -/

theorem hpackDynamicTableAt_ring (t : HpackHeaderDynamicTable) (index : ℕ) :
    hpackDynamicTableAt t index = (ringEntries t)[index]? := by
  unfold hpackDynamicTableAt ringEntries
  by_cases h : index ≥ t.count
  · rw [if_pos h]
    have hnone : (List.range t.count)[index]? = none := by simp [h]
    simp [hnone]
  · rw [if_neg h]
    have hlt : index < t.count := by omega
    simp [hlt]

/-- What the loop of `free` has still to free, from entry `j` on. -/
theorem freeEntries_from (t : HpackHeaderDynamicTable) (rest j : ℕ)
    (hrest : j + rest = t.count) :
    freeEntries t rest ((t.start + j) % t.capacity) = (ringEntries t).drop j := by
  induction rest generalizing j with
  | zero =>
    have hlen : (ringEntries t).length ≤ j := by simp; omega
    rw [List.drop_of_length_le hlen]
    rfl
  | succ rest ih =>
    have hlt : j < (ringEntries t).length := by simp; omega
    have hnext : ((t.start + j) % t.capacity + 1) % t.capacity =
        (t.start + (j + 1)) % t.capacity := by
      rw [Nat.mod_add_mod, Nat.add_assoc]
    have hentry : (ringEntries t)[j] = t.slot j := by simp [ringEntries]
    rw [freeEntries, hnext, ih (j + 1) (by omega), List.drop_eq_getElem_cons hlt, hentry]
    rfl

/-- **Freeing** takes every entry once, the newest first. -/
theorem freeEntries_ring (h : RingOk t) : freeEntries t t.count t.start = ringEntries t := by
  by_cases hzero : t.capacity = 0
  · have hcount : t.count = 0 := by
      have := h.count_le
      omega
    have hnil : ringEntries t = [] := by simp [ringEntries, hcount]
    rw [hnil, hcount]
    rfl
  · have hstart := h.start_lt (Nat.pos_of_ne_zero hzero)
    have hall := freeEntries_from t t.count 0 (Nat.zero_add _)
    rw [Nat.add_zero, Nat.mod_eq_of_lt hstart] at hall
    simpa using hall

/-- The table holds the list, in a buffer of the right shape. -/
def Holds (t : HpackHeaderDynamicTable) (l : List HpackHeaderDynamicEntry) : Prop :=
  Shaped t ∧ ringEntries t = l

/-- **One operation** on the buffer is one on the list. -/
theorem ringStep_refines (t : HpackHeaderDynamicTable) (l : List HpackHeaderDynamicEntry)
    (op : RingOp) (h : Holds t l) :
    Holds (ringStep t op).1 (dequeStep l op).1 ∧ (ringStep t op).2 = (dequeStep l op).2 := by
  obtain ⟨hshape, rfl⟩ := h
  cases op with
  | insertAtStart entry =>
    have hinsert := hpackDynamicTableInsertAtStart_ring hshape.ring entry
    have hcap := insertAtStart_capacity hshape.capacity entry
    exact ⟨⟨⟨hinsert.1, hcap⟩, hinsert.2⟩, rfl⟩
  | popAtEnd =>
    rcases hpackDynamicTablePopAtEnd_ring hshape.ring with ⟨hnil, hpop⟩ |
      ⟨entry, table, hpop, hring, hsplit⟩
    · simp only [ringStep, dequeStep, hpop, hnil]
      exact ⟨⟨hshape, hnil⟩, rfl⟩
    · have hcap := popAtEnd_capacity hshape.capacity hpop
      simp only [ringStep, dequeStep, hpop, hsplit, List.dropLast_concat,
        List.getLast?_concat]
      exact ⟨⟨⟨hring, hcap⟩, rfl⟩, trivial⟩
  | «at» index =>
    have hat := hpackDynamicTableAt_ring t index
    simp only [ringStep, dequeStep, hat]
    exact ⟨⟨hshape, rfl⟩, trivial⟩
  | free =>
    have hfreed := freeEntries_ring hshape.ring
    simp only [ringStep, dequeStep, hfreed]
    exact ⟨⟨shaped_empty, rfl⟩, trivial⟩

/-- **The ring buffer refines a double-ended list.** After any operations on the empty table,
all of them have answered as on the list, the buffer holds the list, newest entry first, and
its start, count and capacity are in order. -/
theorem ringBuffer_refines (ops : List RingOp) :
    let t := finalState ringStep hpackDynamicTableGetEmpty ops
    let l := finalState dequeStep [] ops
    answers ringStep hpackDynamicTableGetEmpty ops = answers dequeStep [] ops ∧
      (∀ i, hpackDynamicTableAt t i = l[i]?) ∧
      hpackDynamicTableSize t = l.length ∧
      (0 < t.capacity → t.start < t.capacity ∧ t.count ≤ t.capacity) ∧
      (t.capacity = 0 ∨ ∃ k, t.capacity = 32 * 2 ^ k) := by
  intro t l
  obtain ⟨hanswers, hshape, hlist⟩ := answers_of_sim ringStep_refines
    (s := hpackDynamicTableGetEmpty) (t := []) ⟨shaped_empty, rfl⟩ ops
  have hheld : ringEntries t = l := hlist
  have hcount : t.count = l.length := by
    rw [← hheld]
    exact (ringEntries_length t).symm
  refine ⟨hanswers, ?_, hcount, ?_, hshape.capacity⟩
  · intro i
    rw [hpackDynamicTableAt_ring, hheld]
  · intro hpos
    exact ⟨hshape.ring.start_lt hpos, hshape.ring.count_le⟩

end SimpleServer.Hpack
