import SimpleServer.Hpack.DynamicTable
import SimpleServer.Lib.Ring
import SimpleServer.Lib.Run

/-!
# The dynamic table keeps its books

The cyclic buffer of `dynamic_hpack_table.c` holds a list, newest entry first
(`ringEntries`); growing and shrinking move entries but not the list. Over it
`hpack.c` counts bytes.

* `hpackDynamicTableInsertAtStart_ring`, `hpackDynamicTablePopAtEnd_ring`: what the two
  operations of the buffer do to the list.
* `popUntilFits_spec`: the eviction loops leave the longest prefix that fits.
* `tableStep_refines`: one insertion or limit change is one of `listStep`, the list model.
* `dynamicTable_accounting`: **every run** keeps counter, limit and list in step.
-/

namespace SimpleServer.Hpack

open Lib

/-! ## The cyclic buffer as a list -/

/-- The entries, the newest first. -/
def ringEntries (t : HpackHeaderDynamicTable) : List HpackHeaderDynamicEntry :=
  (List.range t.count).map t.slot

theorem ringEntries_eq (t : HpackHeaderDynamicTable) :
    ringEntries t = ringList unwrittenEntry t.entries t.capacity t.start t.count := rfl

/-- The shape of the buffer: as many slots as it has capacity, and the first slot inside. -/
structure RingOk (t : HpackHeaderDynamicTable) : Prop where
  length : t.entries.length = t.capacity
  count_le : t.count ≤ t.capacity
  start_lt : 0 < t.capacity → t.start < t.capacity
  start_zero : t.capacity = 0 → t.start = 0

variable {t : HpackHeaderDynamicTable}

theorem ringOk_empty : RingOk hpackDynamicTableGetEmpty :=
  ⟨rfl, le_rfl, fun h => absurd h (lt_irrefl 0), fun _ => rfl⟩

@[simp] theorem ringEntries_empty : ringEntries hpackDynamicTableGetEmpty = [] := rfl

@[simp] theorem ringEntries_length (t : HpackHeaderDynamicTable) :
    (ringEntries t).length = t.count := by
  simp [ringEntries]

theorem moveEntriesToFront_eq (start capacity : ℕ) (entries : List HpackHeaderDynamicEntry)
    (order : List ℕ) : moveEntriesToFront start capacity entries order =
      moves unwrittenEntry (fun i => (start + i) % capacity) id order entries := rfl

/-- Growing makes room and keeps the list. -/
theorem hpackDynamicTableGrow_ring (h : RingOk t) :
    RingOk (hpackDynamicTableGrow t) ∧
      (hpackDynamicTableGrow t).count < (hpackDynamicTableGrow t).capacity ∧
      ringEntries (hpackDynamicTableGrow t) = ringEntries t := by
  unfold hpackDynamicTableGrow
  by_cases hfull : t.count ≥ t.capacity
  · rw [if_pos hfull]
    have hlen := h.length
    have hcount : t.count = t.capacity := le_antisymm h.count_le hfull
    have hcap : t.capacity < implCalcGrow t.capacity := by
      unfold implCalcGrow implStartSize
      split_ifs <;> omega
    by_cases hzero : t.capacity = 0
    · -- the first allocation: there is nothing to move
      have hstart := h.start_zero hzero
      have hnil : t.entries = [] := List.eq_nil_of_length_eq_zero (by omega)
      refine ⟨⟨?_, ?_, ?_, ?_⟩, ?_, ?_⟩
      · simp [hstart, hnil, hzero]
      · dsimp only; omega
      · intro hpos; dsimp only; omega
      · intro hne; dsimp only at hne; omega
      · dsimp only; omega
      · simp [ringEntries, hcount, hzero]
    · have hstart := h.start_lt (Nat.pos_of_ne_zero hzero)
      have hdouble : implCalcGrow t.capacity = t.capacity * 2 := by
        unfold implCalcGrow
        rw [if_neg hzero]
      dsimp only
      set entries := t.entries ++ List.replicate (implCalcGrow t.capacity - t.capacity)
        unwrittenEntry with hentries
      have hnew : entries.length = implCalcGrow t.capacity := by
        rw [hentries, List.length_append, List.length_replicate]
        omega
      have hmoves : (List.range t.start).foldl
          (fun e i => e.set (t.count + i) (e.getD i unwrittenEntry)) entries =
          moves unwrittenEntry id (fun i => t.count + i) (List.range t.start) entries := rfl
      rw [hmoves]
      refine ⟨⟨?_, ?_, ?_, ?_⟩, ?_, ?_⟩
      · rw [moves_length, hnew]
      · dsimp only; omega
      · intro _; dsimp only; omega
      · intro hne; dsimp only at hne; omega
      · omega
      · rw [ringEntries_eq, ringEntries_eq]
        apply ringList_congr
        intro i hi
        have hi' : i < t.count := hi
        rw [Nat.mod_eq_of_lt (show t.start + i < implCalcGrow t.capacity by omega),
          add_mod_cap hstart (by omega)]
        have hold : ∀ j < t.capacity, entries.getD j unwrittenEntry =
            t.entries.getD j unwrittenEntry := by
          intro j hj
          rw [hentries, List.getD_append _ _ _ _ (by omega)]
        split_ifs with hwrap
        · -- an entry that stays: no move writes below the old count
          rw [moves_of_ne id (by intro j hj; omega), hold _ hwrap]
        · -- an entry that was in front of the first one
          have hmem : t.start + i - t.capacity ∈ List.range t.start := by
            rw [List.mem_range]; omega
          have hsafe : (List.range t.start).Pairwise
              fun i j => t.count + i ≠ id j ∧ t.count + i ≠ t.count + j := by
            rw [List.pairwise_iff_getElem]
            intro a b ha hb hab
            simp only [List.length_range] at ha hb
            simp only [List.getElem_range, id]
            omega
          have hmove := moves_at (d := unwrittenEntry) (e := entries) id (fun i => t.count + i)
            hsafe
            (by intro j hj; rw [List.mem_range] at hj; omega) hmem
          rw [show t.count + (t.start + i - t.capacity) = t.start + i by omega] at hmove
          rw [hmove, id, hold _ (by omega)]
  · rw [if_neg hfull]
    exact ⟨h, not_le.1 hfull, rfl⟩

/-- **An insertion** puts the entry in front. -/
theorem hpackDynamicTableInsertAtStart_ring (h : RingOk t) (entry : HpackHeaderDynamicEntry) :
    RingOk (hpackDynamicTableInsertAtStart t entry) ∧
      ringEntries (hpackDynamicTableInsertAtStart t entry) = entry :: ringEntries t := by
  obtain ⟨hgrow, hroom, hsame⟩ := hpackDynamicTableGrow_ring h
  have hpos : 0 < (hpackDynamicTableGrow t).capacity := by omega
  have hstart := hgrow.start_lt hpos
  unfold hpackDynamicTableInsertAtStart
  dsimp only
  refine ⟨⟨?_, hroom, ?_, ?_⟩, ?_⟩
  · rw [List.length_set]
    exact hgrow.length
  · intro _
    exact Nat.mod_lt _ hpos
  · intro hzero
    exact absurd hzero (Nat.pos_iff_ne_zero.1 hpos)
  · rw [ringEntries_eq, ← hsame, ringEntries_eq]
    exact ringList_cons entry hgrow.length hstart hroom

/-- Moving the entries to the front in an order that never reads what it has written. -/
theorem moveEntriesToFront_slot (h : RingOk t) (hshrink : t.count < t.capacity / 4)
    {order : List ℕ} (hmem : ∀ i, i ∈ order ↔ i < t.count)
    (hsafe : order.Pairwise fun i j => i ≠ (t.start + j) % t.capacity ∧ i ≠ j) {i : ℕ}
    (hi : i < t.count) :
    (moveEntriesToFront t.start t.capacity t.entries order).getD i unwrittenEntry = t.slot i := by
  have hlen := h.length
  have hdst : ∀ j ∈ order, id j < t.entries.length := by
    intro j hj
    have hj' := (hmem j).1 hj
    simp only [id]
    omega
  exact moves_at (d := unwrittenEntry) (fun i => (t.start + i) % t.capacity) id hsafe hdst
    ((hmem i).2 hi)

/-- What the shrinking keeps in the first half of the buffer. -/
theorem shrink_entries (h : RingOk t) (hshrink : t.count < t.capacity / 4) {i : ℕ}
    (hi : i < t.count) :
    (if t.start ≥ t.capacity / 2 then
        moveEntriesToFront t.start t.capacity t.entries (List.range t.count).reverse
      else if t.start = 0 then t.entries
      else moveEntriesToFront t.start t.capacity t.entries (List.range t.count)).getD i
      unwrittenEntry = t.slot i := by
  have hstart : t.start < t.capacity := h.start_lt (by omega)
  split_ifs with hhigh hzero
  · -- from the end: the slot of an earlier entry is above the half, or below its index
    refine moveEntriesToFront_slot h hshrink (by simp) ?_ hi
    rw [List.pairwise_reverse, List.pairwise_iff_getElem]
    intro a b ha hb hab
    simp only [List.length_range] at ha hb
    simp only [List.getElem_range]
    rw [add_mod_cap hstart (by omega)]
    split_ifs <;> omega
  · unfold HpackHeaderDynamicTable.slot
    rw [hzero, Nat.zero_add, Nat.mod_eq_of_lt (by omega)]
  · -- from the front: no entry wraps around, and all slots are above their indices
    refine moveEntriesToFront_slot h hshrink (by simp) ?_ hi
    rw [List.pairwise_iff_getElem]
    intro a b ha hb hab
    simp only [List.length_range] at ha hb
    simp only [List.getElem_range]
    rw [add_mod_cap hstart (by omega)]
    split_ifs <;> omega

/-- Shrinking keeps the list. -/
theorem hpackDynamicTableShrink_ring (h : RingOk t) :
    RingOk (hpackDynamicTableShrink t) ∧
      ringEntries (hpackDynamicTableShrink t) = ringEntries t := by
  unfold hpackDynamicTableShrink implShouldShrink implCalcShrink
  simp only [decide_eq_true_eq]
  by_cases hshrink : t.count < t.capacity / 4
  · rw [if_pos hshrink]
    by_cases hsmall : t.capacity / 2 < implStartSize
    · rw [if_pos hsmall]
      exact ⟨h, rfl⟩
    · rw [if_neg hsmall]
      have hlen := h.length
      have hsize : implStartSize = 32 := rfl
      refine ⟨⟨?_, ?_, ?_, ?_⟩, ?_⟩
      · dsimp only
        rw [List.length_take]
        split_ifs
        · rw [moveEntriesToFront_eq, moves_length]; omega
        · omega
        · rw [moveEntriesToFront_eq, moves_length]; omega
      · dsimp only; omega
      · intro hpos; exact hpos
      · intro _; rfl
      · rw [ringEntries_eq]
        unfold ringEntries
        apply List.map_congr_left
        intro i hi
        have hi' : i < t.count := List.mem_range.1 hi
        dsimp only
        rw [← shrink_entries h hshrink hi', Nat.zero_add, Nat.mod_eq_of_lt (by omega),
          List.getD_eq_getElem?_getD, List.getElem?_take_of_lt (by omega),
          ← List.getD_eq_getElem?_getD]
  · rw [if_neg hshrink]
    exact ⟨h, rfl⟩

/-- **A removal** takes the last entry, if there is one. -/
theorem hpackDynamicTablePopAtEnd_ring (h : RingOk t) :
    (ringEntries t = [] ∧ hpackDynamicTablePopAtEnd t = none) ∨
    ∃ entry table, hpackDynamicTablePopAtEnd t = some (entry, table) ∧ RingOk table ∧
      ringEntries t = ringEntries table ++ [entry] := by
  unfold hpackDynamicTablePopAtEnd
  by_cases hcount : t.count = 0
  · left
    rw [if_pos hcount]
    exact ⟨by simp [ringEntries, hcount], rfl⟩
  · right
    rw [if_neg hcount]
    have hle := h.count_le
    have hless : RingOk { t with count := t.count - 1 } :=
      ⟨h.length, by dsimp only; omega, h.start_lt, h.start_zero⟩
    obtain ⟨hring, hsame⟩ := hpackDynamicTableShrink_ring hless
    refine ⟨_, _, rfl, hring, ?_⟩
    obtain ⟨n, hn⟩ : ∃ n, t.count = n + 1 := ⟨t.count - 1, by omega⟩
    rw [hsame, ringEntries_eq, ringEntries_eq]
    dsimp only
    rw [hn, Nat.add_sub_cancel, ringList_succ]
    rfl

/-! ## The byte counter -/

/-- The bytes a list of entries counts for. -/
def entriesSize (l : List HpackHeaderDynamicEntry) : ℕ := (l.map getDynamicEntrySize).sum

/-- The counter is the size of the entries, which is a `size_t`. -/
structure TableOk (state : HpackDynamicTableState) : Prop where
  ring : RingOk state.dynamicTable
  size : state.currentDynamicTableByteSize = entriesSize (ringEntries state.dynamicTable)
  lt : state.currentDynamicTableByteSize < 2 ^ 64

variable {state : HpackDynamicTableState}

theorem tableOk_cleared (state : HpackDynamicTableState) : TableOk state.cleared :=
  ⟨ringOk_empty, rfl, Nat.two_pow_pos 64⟩

theorem sizeSub_eq {a b : ℕ} (hle : b ≤ a) (hlt : a < 2 ^ 64) : sizeSub a b = a - b := by
  unfold sizeSub
  rw [show a + 2 ^ 64 - b = a - b + 2 ^ 64 by omega, Nat.add_mod_right]
  exact Nat.mod_eq_of_lt (by omega)

/-- No subtraction of the eviction loop goes below zero. -/
def popsWithinSize (newSize : ℕ) : ℕ → HpackDynamicTableState → Prop
  | 0, _ => True
  | fuel + 1, state =>
    if state.currentDynamicTableByteSize + newSize > state.maxDynamicTableByteSize then
      match hpackDynamicTablePopAtEnd state.dynamicTable with
      | none => True
      | some (entry, table) =>
        getDynamicEntrySize entry ≤ state.currentDynamicTableByteSize ∧
          popsWithinSize newSize fuel
            { state with
              dynamicTable := table
              currentDynamicTableByteSize :=
                sizeSub state.currentDynamicTableByteSize (getDynamicEntrySize entry) }
    else True

/-- One round of the eviction loop takes the last entry and its size away. -/
theorem tableOk_pop (h : TableOk state) {entry : HpackHeaderDynamicEntry}
    {table : HpackHeaderDynamicTable} (hring : RingOk table)
    (hsplit : ringEntries state.dynamicTable = ringEntries table ++ [entry]) :
    getDynamicEntrySize entry ≤ state.currentDynamicTableByteSize ∧
      TableOk { state with
        dynamicTable := table
        currentDynamicTableByteSize :=
          sizeSub state.currentDynamicTableByteSize (getDynamicEntrySize entry) } := by
  have hlt := h.lt
  have hsum : state.currentDynamicTableByteSize =
      entriesSize (ringEntries table) + getDynamicEntrySize entry := by
    rw [h.size, hsplit]
    simp [entriesSize]
  have hle : getDynamicEntrySize entry ≤ state.currentDynamicTableByteSize := by omega
  have hsub := sizeSub_eq hle hlt
  refine ⟨hle, ⟨hring, ?_, ?_⟩⟩
  · dsimp only
    omega
  · dsimp only
    omega

/-- **The eviction loop** leaves the longest prefix that has room for `newSize` more bytes. -/
theorem popUntilFits_spec (newSize fuel : ℕ) (h : TableOk state)
    (hnew : newSize ≤ state.maxDynamicTableByteSize)
    (hfuel : state.dynamicTable.count ≤ fuel) :
    TableOk (popUntilFits newSize fuel state) ∧ popsWithinSize newSize fuel state ∧
      ringEntries (popUntilFits newSize fuel state).dynamicTable =
        fit getDynamicEntrySize (state.maxDynamicTableByteSize - newSize)
          (ringEntries state.dynamicTable) := by
  induction fuel generalizing state with
  | zero =>
    have hempty : ringEntries state.dynamicTable = [] :=
      List.eq_nil_of_length_eq_zero (by rw [ringEntries_length]; omega)
    refine ⟨h, trivial, ?_⟩
    rw [popUntilFits, hempty]
    rfl
  | succ fuel ih =>
    unfold popUntilFits popsWithinSize
    by_cases hfull : state.currentDynamicTableByteSize + newSize > state.maxDynamicTableByteSize
    · rw [if_pos hfull, if_pos hfull]
      rcases hpackDynamicTablePopAtEnd_ring h.ring with ⟨hempty, hpop⟩ |
        ⟨entry, table, hpop, hring, hsplit⟩
      · rw [hpop, hempty]
        exact ⟨h, trivial, rfl⟩
      · rw [hpop]
        obtain ⟨hle, hok⟩ := tableOk_pop h hring hsplit
        have hcount : table.count ≤ fuel := by
          have hlen := congrArg List.length hsplit
          rw [List.length_append, ringEntries_length, ringEntries_length] at hlen
          simp only [List.length_singleton] at hlen
          omega
        obtain ⟨hok', hsafe, hlist⟩ := ih hok hnew hcount
        refine ⟨hok', ⟨hle, hsafe⟩, ?_⟩
        dsimp only at hlist ⊢
        -- the list was too long, so its last entry is not in the prefix that fits
        have hlong : state.maxDynamicTableByteSize - newSize <
            ((ringEntries state.dynamicTable).map getDynamicEntrySize).sum := by
          have hsize : state.currentDynamicTableByteSize =
            ((ringEntries state.dynamicTable).map getDynamicEntrySize).sum := h.size
          omega
        rw [hlist, ← fit_dropLast hlong, hsplit, List.dropLast_concat]
    · rw [if_neg hfull, if_neg hfull]
      refine ⟨h, trivial, (fit_eq_self ?_).symm⟩
      have hsize : state.currentDynamicTableByteSize =
        ((ringEntries state.dynamicTable).map getDynamicEntrySize).sum := h.size
      omega

/-! ## The list model -/

/-- What is done to a table: an insertion, or a new limit followed by the eviction. -/
inductive TableOp
  | insert (entry : HpackHeaderDynamicEntry)
  | limit (max : UInt64)

def tableStep (state : HpackDynamicTableState) : TableOp → HpackDynamicTableState
  | .insert entry => insertEntryIntoDynamicTable state entry
  | .limit max => setHpackStateSetting state max.toNat

/-- No subtraction of the operation goes below zero. -/
def opWithinSize (state : HpackDynamicTableState) : TableOp → Prop
  | .insert entry =>
    getDynamicEntrySize entry ≤ state.maxDynamicTableByteSize →
      popsWithinSize (getDynamicEntrySize entry) (hpackDynamicTableSize state.dynamicTable) state
  | .limit max =>
    popsWithinSize 0 (hpackDynamicTableSize state.dynamicTable)
      { state with maxDynamicTableByteSize := max.toNat }

/-- The list model of RFC 7541 section 4: the entries, newest first, and the limit. -/
structure ListTable where
  entries : List HpackHeaderDynamicEntry
  limit : ℕ

/-- Entries leave from the old end until the rest fits; an entry that can never fit empties
the table. -/
def listStep (table : ListTable) : TableOp → ListTable
  | .insert entry =>
    if table.limit < getDynamicEntrySize entry then { table with entries := [] }
    else { table with
      entries := entry ::
        fit getDynamicEntrySize (table.limit - getDynamicEntrySize entry) table.entries }
  | .limit max => ⟨fit getDynamicEntrySize max.toNat table.entries, max.toNat⟩

/-- The entries inserted since the table was last emptied, newest first: by an entry that
can never fit, or by the limit zero. -/
def sinceCleared (limit : ℕ) (inserted : List HpackHeaderDynamicEntry) :
    TableOp → List HpackHeaderDynamicEntry
  | .insert entry => if limit < getDynamicEntrySize entry then [] else entry :: inserted
  | .limit max => if max.toNat = 0 then [] else inserted

/-- The list model with the entries inserted since the last clearing beside it. -/
def historyStep (s : ListTable × List HpackHeaderDynamicEntry) (op : TableOp) :
    ListTable × List HpackHeaderDynamicEntry :=
  (listStep s.1 op, sinceCleared s.1.limit s.2 op)

/-- The table and the list model agree. -/
structure Refines (state : HpackDynamicTableState)
    (s : ListTable × List HpackHeaderDynamicEntry) : Prop where
  ok : TableOk state
  limit : state.maxDynamicTableByteSize = s.1.limit
  limit_lt : s.1.limit < 2 ^ 64
  entries : ringEntries state.dynamicTable = s.1.entries
  size_le : state.currentDynamicTableByteSize ≤ state.maxDynamicTableByteSize
  history : s.1.entries <+: s.2

variable {s : ListTable × List HpackHeaderDynamicEntry}

theorem insert_refines (h : Refines state s) (entry : HpackHeaderDynamicEntry) :
    Refines (tableStep state (.insert entry)) (historyStep s (.insert entry)) ∧
      opWithinSize state (.insert entry) := by
  have hmax := h.limit
  simp only [tableStep, historyStep, listStep, sinceCleared, opWithinSize,
    insertEntryIntoDynamicTable]
  by_cases hbig : s.1.limit < getDynamicEntrySize entry
  · rw [if_pos hbig, if_pos hbig, if_pos (by omega)]
    refine ⟨⟨tableOk_cleared state, hmax, h.limit_lt, rfl, Nat.zero_le _, List.prefix_rfl⟩, ?_⟩
    intro hle
    omega
  · rw [if_neg hbig, if_neg hbig, if_neg (by omega)]
    obtain ⟨hok, hsafe, hlist⟩ := popUntilFits_spec (getDynamicEntrySize entry)
      (hpackDynamicTableSize state.dynamicTable) h.ok (by omega) le_rfl
    have hmax' := popUntilFits_max (getDynamicEntrySize entry)
      (hpackDynamicTableSize state.dynamicTable) state
    obtain ⟨hring, hcons⟩ := hpackDynamicTableInsertAtStart_ring hok.ring entry
    have hroom := fit_sum_le getDynamicEntrySize
      (state.maxDynamicTableByteSize - getDynamicEntrySize entry)
      (ringEntries state.dynamicTable)
    have hsize := hok.size
    rw [hlist, entriesSize] at hsize
    have hlt := h.limit_lt
    refine ⟨⟨⟨hring, ?_, ?_⟩, ?_, hlt, ?_, ?_, ?_⟩, fun _ => hsafe⟩
    · rw [hcons, hlist, entriesSize, List.map_cons, List.sum_cons, hsize]
      dsimp only
      omega
    · dsimp only
      omega
    · exact hmax'.trans hmax
    · rw [hcons, hlist, hmax, h.entries]
    · dsimp only
      omega
    · exact List.cons_prefix_cons.2 ⟨rfl, (fit_initial _ _ _).trans h.history⟩

theorem limit_refines (h : Refines state s) (max : UInt64) :
    Refines (tableStep state (.limit max)) (historyStep s (.limit max)) ∧
      opWithinSize state (.limit max) := by
  have hok : TableOk { state with maxDynamicTableByteSize := max.toNat } :=
    ⟨h.ok.ring, h.ok.size, h.ok.lt⟩
  obtain ⟨hok', hsafe, hlist⟩ := popUntilFits_spec 0
    (hpackDynamicTableSize state.dynamicTable) hok (Nat.zero_le _) le_rfl
  rw [Nat.sub_zero] at hlist
  dsimp only at hlist
  refine ⟨?_, hsafe⟩
  simp only [tableStep, historyStep, listStep, sinceCleared, setHpackStateSetting,
    dynamicTableEvictEntriesOnTableChange]
  by_cases hzero : max.toNat = 0
  · rw [if_pos hzero, if_pos hzero]
    have hnone := fit_zero getDynamicEntrySize
      (fun e => by unfold getDynamicEntrySize; omega) s.1.entries
    rw [hzero, hnone]
    exact ⟨tableOk_cleared _, rfl, Nat.two_pow_pos 64, rfl, Nat.zero_le _, List.prefix_rfl⟩
  · rw [if_neg hzero, if_neg hzero]
    have hmax' := popUntilFits_max 0 (hpackDynamicTableSize state.dynamicTable)
      { state with maxDynamicTableByteSize := max.toNat }
    have hsize := hok'.size
    rw [hlist, entriesSize] at hsize
    refine ⟨hok', hmax', max.toNat_lt, ?_, ?_, (fit_initial _ _ _).trans h.history⟩
    · rw [hlist, h.entries]
    · rw [hsize, hmax']
      exact fit_sum_le _ _ _

/-- **One operation** on the table is one on the list. -/
theorem tableStep_refines (h : Refines state s) (op : TableOp) :
    Refines (tableStep state op) (historyStep s op) ∧ opWithinSize state op := by
  cases op with
  | insert entry => exact insert_refines h entry
  | limit max => exact limit_refines h max

theorem refines_empty (max : UInt64) :
    Refines (getDefaultHpackDynamicTableState max.toNat) (⟨[], max.toNat⟩, []) :=
  ⟨⟨ringOk_empty, rfl, Nat.two_pow_pos 64⟩, rfl, max.toNat_lt, rfl, Nat.zero_le _,
    List.prefix_rfl⟩

theorem run_refines (h : Refines state s) (ops : List TableOp) :
    Refines (runFrom tableStep state ops) (runFrom historyStep s ops) ∧
      Along tableStep opWithinSize state ops := by
  induction ops generalizing state s with
  | nil => exact ⟨h, trivial⟩
  | cons op ops ih =>
    obtain ⟨hstep, hsafe⟩ := tableStep_refines h op
    obtain ⟨hrun, halong⟩ := ih hstep
    exact ⟨hrun, hsafe, halong⟩

theorem historyStep_fst (s : ListTable × List HpackHeaderDynamicEntry) (ops : List TableOp) :
    (runFrom historyStep s ops).1 = runFrom listStep s.1 ops := by
  induction ops generalizing s with
  | nil => rfl
  | cons op ops ih => exact ih (historyStep s op)

/-- **Dynamic table accounting.** After any insertions and limit changes from an empty table
the counter is the size of the stored entries and within the limit, no subtraction went
below zero on the way, and the stored entries are those of the list model: a prefix of what
was inserted since the last clearing. -/
theorem dynamicTable_accounting (max : UInt64) (ops : List TableOp) :
    let state := runFrom tableStep (getDefaultHpackDynamicTableState max.toNat) ops
    let table := runFrom listStep ⟨[], max.toNat⟩ ops
    let inserted := (runFrom historyStep (⟨[], max.toNat⟩, []) ops).2
    state.currentDynamicTableByteSize = entriesSize (ringEntries state.dynamicTable) ∧
      state.currentDynamicTableByteSize ≤ state.maxDynamicTableByteSize ∧
      Along tableStep opWithinSize (getDefaultHpackDynamicTableState max.toNat) ops ∧
      state.maxDynamicTableByteSize = table.limit ∧
      ringEntries state.dynamicTable = table.entries ∧
      table.entries <+: inserted := by
  intro state table inserted
  obtain ⟨hrun, hsafe⟩ := run_refines (refines_empty max) ops
  have hlist : (runFrom historyStep (⟨[], max.toNat⟩, []) ops).1 = table :=
    historyStep_fst (⟨[], max.toNat⟩, []) ops
  refine ⟨hrun.ok.size, hrun.size_le, hsafe, ?_, ?_, ?_⟩
  · rw [← hlist]
    exact hrun.limit
  · rw [← hlist]
    exact hrun.entries
  · rw [← hlist]
    exact hrun.history

end SimpleServer.Hpack
