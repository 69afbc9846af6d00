import SimpleServer.Hpack.Huffman

/-!
# The dynamic table (`dynamic_hpack_table.c`, and its use in `hpack.c`)

A cyclic buffer with constant-time indexing, insertion at the start and removal
at the end, and the byte accounting the HPACK states keep over it. Compressor
and decompressor hold the same kind of state and change it through the same two
operations, `insertEntryIntoDynamicTable` and
`dynamicTableEvictEntriesOnTableChange`.

* `insertEntryIntoDynamicTable_max`: an insertion keeps the limit.
* `setHpackStateSetting_max`: a new setting is the new limit.
-/

namespace SimpleServer.Hpack

structure HpackHeaderDynamicEntry where
  key : Bytes
  value : Bytes
deriving Repr, DecidableEq

/-- What a slot holds that was allocated and never written. -/
def unwrittenEntry : HpackHeaderDynamicEntry := ⟨[], []⟩

/-- The cyclic buffer: `entries` has `capacity` slots, entry `i` is in slot
`(start + i) % capacity`. -/
structure HpackHeaderDynamicTable where
  entries : List HpackHeaderDynamicEntry
  count : ℕ
  capacity : ℕ
  start : ℕ
deriving Repr, DecidableEq

def hpackDynamicTableGetEmpty : HpackHeaderDynamicTable := ⟨[], 0, 0, 0⟩

/-- The slot an index is in. -/
def HpackHeaderDynamicTable.slot (t : HpackHeaderDynamicTable) (index : ℕ) :
    HpackHeaderDynamicEntry :=
  t.entries.getD ((t.start + index) % t.capacity) unwrittenEntry

def hpackDynamicTableAt (t : HpackHeaderDynamicTable) (index : ℕ) :
    Option HpackHeaderDynamicEntry :=
  if index ≥ t.count then none else some (t.slot index)

def hpackDynamicTableSize (t : HpackHeaderDynamicTable) : ℕ := t.count

/-- The loop of `hpack_dynamic_table_free`, which counts `rest_count` down: the entries it
frees, one after the other. -/
def freeEntries (t : HpackHeaderDynamicTable) : ℕ → ℕ → List HpackHeaderDynamicEntry
  | 0, _ => []
  | restCount + 1, i =>
    t.entries.getD i unwrittenEntry :: freeEntries t restCount ((i + 1) % t.capacity)

def hpackDynamicTableFree (_ : HpackHeaderDynamicTable) : HpackHeaderDynamicTable :=
  hpackDynamicTableGetEmpty

/-- `IMPL_START_SIZE`. -/
def implStartSize : ℕ := 32

/-- `IMPL_CALC_GROW`. -/
def implCalcGrow (cap : ℕ) : ℕ := if cap = 0 then implStartSize else cap * 2

/-- `IMPL_SHOULD_SHRINK`. -/
def implShouldShrink (count cap : ℕ) : Bool := count < cap / 4

/-- `IMPL_CALC_SHRINK`. -/
def implCalcShrink (cap : ℕ) : ℕ := cap / 2

/-- Move the entries with the given indices to the slots of the same number, one after
the other in this order. -/
def moveEntriesToFront (start capacity : ℕ) (entries : List HpackHeaderDynamicEntry)
    (order : List ℕ) : List HpackHeaderDynamicEntry :=
  order.foldl (fun e i => e.set i (e.getD ((start + i) % capacity) unwrittenEntry)) entries

/-- The shrinking part of `hpack_dynamic_table_pop_at_end`. -/
def hpackDynamicTableShrink (t : HpackHeaderDynamicTable) : HpackHeaderDynamicTable :=
  if implShouldShrink t.count t.capacity then
    let newCapacity := implCalcShrink t.capacity
    if newCapacity < implStartSize then t
    else
      let entries :=
        if t.start ≥ newCapacity then
          -- from the end, since the entries may overlap with their new places at the start
          moveEntriesToFront t.start t.capacity t.entries (List.range t.count).reverse
        else if t.start = 0 then t.entries
        else moveEntriesToFront t.start t.capacity t.entries (List.range t.count)
      ⟨entries.take newCapacity, t.count, newCapacity, 0⟩
  else t

def hpackDynamicTablePopAtEnd (t : HpackHeaderDynamicTable) :
    Option (HpackHeaderDynamicEntry × HpackHeaderDynamicTable) :=
  if t.count = 0 then none
  else some (t.slot (t.count - 1), hpackDynamicTableShrink { t with count := t.count - 1 })

/-- The growing part of `hpack_dynamic_table_insert_at_start`: the entries before `start`
are moved behind the others. -/
def hpackDynamicTableGrow (t : HpackHeaderDynamicTable) : HpackHeaderDynamicTable :=
  if t.count ≥ t.capacity then
    let newCapacity := implCalcGrow t.capacity
    let entries := t.entries ++ List.replicate (newCapacity - t.capacity) unwrittenEntry
    { t with
      entries := (List.range t.start).foldl
        (fun e i => e.set (t.count + i) (e.getD i unwrittenEntry)) entries
      capacity := newCapacity }
  else t

def hpackDynamicTableInsertAtStart (t : HpackHeaderDynamicTable)
    (entry : HpackHeaderDynamicEntry) : HpackHeaderDynamicTable :=
  let t := hpackDynamicTableGrow t
  let firstFreeIdx := (t.start + t.capacity - 1) % t.capacity
  { t with
    entries := t.entries.set firstFreeIdx entry
    count := t.count + 1
    start := firstFreeIdx }

/-! ## The table with its byte sizes -/

structure HpackDynamicTableState where
  dynamicTable : HpackHeaderDynamicTable
  maxDynamicTableByteSize : ℕ
  currentDynamicTableByteSize : ℕ
deriving Repr, DecidableEq

/-- `get_default_hpack_dynamic_table_state`. -/
def getDefaultHpackDynamicTableState (maxDynamicTableByteSize : ℕ) : HpackDynamicTableState :=
  ⟨hpackDynamicTableGetEmpty, maxDynamicTableByteSize, 0⟩

/-- `HpackDecompressState`. -/
abbrev HpackDecompressState := HpackDynamicTableState

/-- `HpackCompressState`. -/
abbrev HpackCompressState := HpackDynamicTableState

def getDynamicEntrySize (entry : HpackHeaderDynamicEntry) : ℕ :=
  entry.key.length + entry.value.length + 32

/-- Subtraction of `size_t` values. -/
def sizeSub (a b : ℕ) : ℕ := (a + 2 ^ 64 - b) % 2 ^ 64

/-- The table freed and its size reset. -/
def HpackDynamicTableState.cleared (state : HpackDynamicTableState) : HpackDynamicTableState :=
  { state with
    dynamicTable := hpackDynamicTableFree state.dynamicTable
    currentDynamicTableByteSize := 0 }

/-- The loops that pop entries until `new_size` more bytes fit; `fuel` is the number of
entries, so that it runs out exactly when there is nothing left to pop. -/
def popUntilFits (newSize : ℕ) : ℕ → HpackDynamicTableState → HpackDynamicTableState
  | 0, state => state
  | fuel + 1, state =>
    if state.currentDynamicTableByteSize + newSize > state.maxDynamicTableByteSize then
      match hpackDynamicTablePopAtEnd state.dynamicTable with
      | none => state
      | some (entry, table) =>
        popUntilFits newSize fuel
          { state with
            dynamicTable := table
            currentDynamicTableByteSize :=
              sizeSub state.currentDynamicTableByteSize (getDynamicEntrySize entry) }
    else state

def insertEntryIntoDynamicTable (state : HpackDynamicTableState)
    (newEntry : HpackHeaderDynamicEntry) : HpackDynamicTableState :=
  let newSize := getDynamicEntrySize newEntry
  if newSize > state.maxDynamicTableByteSize then state.cleared
  else
    let state := popUntilFits newSize (hpackDynamicTableSize state.dynamicTable) state
    { state with
      dynamicTable := hpackDynamicTableInsertAtStart state.dynamicTable newEntry
      currentDynamicTableByteSize := state.currentDynamicTableByteSize + newSize }

def dynamicTableEvictEntriesOnTableChange (state : HpackDynamicTableState) :
    HpackDynamicTableState :=
  if state.maxDynamicTableByteSize = 0 then state.cleared
  else popUntilFits 0 (hpackDynamicTableSize state.dynamicTable) state

/-- The common body of `set_hpack_decompress_state_setting` and
`set_hpack_compress_state_setting`. -/
def setHpackStateSetting (state : HpackDynamicTableState) (maxDynamicTableByteSize : ℕ) :
    HpackDynamicTableState :=
  dynamicTableEvictEntriesOnTableChange
    { state with maxDynamicTableByteSize := maxDynamicTableByteSize }

def setHpackDecompressStateSetting (state : HpackDecompressState) (max : ℕ) :
    HpackDecompressState := setHpackStateSetting state max

def setHpackCompressStateSetting (state : HpackCompressState) (max : ℕ) : HpackCompressState :=
  setHpackStateSetting state max

/-! ## What the operations do to the limit -/

theorem popUntilFits_max (newSize fuel : ℕ) (state : HpackDynamicTableState) :
    (popUntilFits newSize fuel state).maxDynamicTableByteSize = state.maxDynamicTableByteSize := by
  induction fuel generalizing state with
  | zero => rfl
  | succ fuel ih =>
    unfold popUntilFits
    split
    · cases h : hpackDynamicTablePopAtEnd state.dynamicTable with
      | none => rfl
      | some r => exact ih _
    · rfl

@[simp] theorem insertEntryIntoDynamicTable_max (state : HpackDynamicTableState)
    (e : HpackHeaderDynamicEntry) :
    (insertEntryIntoDynamicTable state e).maxDynamicTableByteSize =
      state.maxDynamicTableByteSize := by
  unfold insertEntryIntoDynamicTable
  dsimp only
  split
  · rfl
  · exact popUntilFits_max _ _ _

@[simp] theorem setHpackStateSetting_max (state : HpackDynamicTableState) (max : ℕ) :
    (setHpackStateSetting state max).maxDynamicTableByteSize = max := by
  unfold setHpackStateSetting dynamicTableEvictEntriesOnTableChange
  dsimp only
  split
  · rfl
  · exact popUntilFits_max _ _ _

@[simp] theorem setHpackDecompressStateSetting_max (state : HpackDecompressState) (max : ℕ) :
    (setHpackDecompressStateSetting state max).maxDynamicTableByteSize = max :=
  setHpackStateSetting_max state max

@[simp] theorem setHpackCompressStateSetting_max (state : HpackCompressState) (max : ℕ) :
    (setHpackCompressStateSetting state max).maxDynamicTableByteSize = max :=
  setHpackStateSetting_max state max

end SimpleServer.Hpack
