import SimpleServer.Hpack.Decode

/-!
# Compression (`hpack.c`)

The encoders of a single field come in two kinds (never indexed, incremental
indexing), two variants (key from a table, key as a literal) and with or without
Huffman coding. A kind is a `LiteralKind`; a `SizedBuffer` whose data is `NULL` is the
fault `nullBuffer`. Memory allocation succeeds.

* `http2HpackCompressData_max`: compressing keeps the limit of the table.
-/

namespace SimpleServer.Hpack

/-- `(SizedBuffer){ .data = NULL, .size = 0 }` as the result of an encoder. -/
def nullBuffer : Fault := .error "NULL"

/-- `MAX_HPACK_VARIABLE_INTEGER_SIZE`. -/
def maxHpackVariableIntegerSize : ℕ := (8 * 8 + 7) / 7

/-- The loop of `encode_hpack_variable_integer`; `room` is how often the index may still
grow before it exceeds `MAX_HPACK_VARIABLE_INTEGER_SIZE`. -/
def encodeIntegerLoop : ℕ → ℕ → Option Bytes
  | 0, _ => none
  | room + 1, value =>
    if value ≥ 0x80 then
      (encodeIntegerLoop room (value / 0x80)).map (UInt8.ofNat (0x80 + value % 0x80) :: ·)
    else some [UInt8.ofNat value]

/-- `encode_hpack_variable_integer`, where the first byte already holds `first`. -/
def encodeHpackVariableInteger (first : UInt8) (input prefixBits : ℕ) : Option Bytes :=
  let mask := 2 ^ prefixBits - 1
  if input < mask then some [first ||| UInt8.ofNat input]
  else
    (encodeIntegerLoop maxHpackVariableIntegerSize (input - mask)).map
      ((first ||| UInt8.ofNat mask) :: ·)

/-- Write an integer; `limited` encoders also refuse one that takes more than
`MAX_HPACK_VARIABLE_INTEGER_SIZE` bytes. -/
def encodeInteger (limited : Bool) (first : UInt8) (input prefixBits : ℕ) : Except Fault Bytes :=
  match encodeHpackVariableInteger first input prefixBits with
  | none => .error nullBuffer
  | some bytes =>
    if limited ∧ bytes.length > maxHpackVariableIntegerSize then .error nullBuffer else .ok bytes

/-- A string literal without Huffman coding. -/
def encodeStringNoHuffman (str : Bytes) : Except Fault Bytes :=
  (encodeInteger true 0x00 str.length 7).map (· ++ str)

/-- A string literal with Huffman coding, for which `size` bytes are reserved. -/
def encodeStringHuffman (str : Bytes) (size : ℕ) : Except Fault Bytes :=
  match encodeInteger false 0x80 size 7 with
  | .error e => .error e
  | .ok length =>
    match hpackHuffmanEncodeValueFixedSize (List.replicate size 0) size str with
    | .error .undefined => .error .undefined
    | .error (.error _) => .error nullBuffer
    | .ok encoded => if encoded.length ≠ size then .error nullBuffer else .ok (length ++ encoded)

/-- The last check of the encoders: too much data used. -/
def fitBuffer (maxSize : ℕ) (bytes : Bytes) : Except Fault Bytes :=
  if bytes.length > maxSize then .error nullBuffer else .ok bytes

/-- What distinguishes never indexed literals from those with incremental indexing: the
first byte, the prefix of the index, and whether the Huffman variant limits the index. -/
structure LiteralKind where
  first : UInt8
  prefixBits : ℕ
  indexLimited : Bool

def LiteralKind.neverIndexed : LiteralKind := ⟨0x10, 4, false⟩

def LiteralKind.incrementalIndexing : LiteralKind := ⟨0x40, 6, true⟩

inductive Http2HpackHuffmanUsage where
  | never
  | always
  | auto
deriving Repr, DecidableEq

/-- Variant 1, key as a table index, without Huffman coding. -/
def encodeLiteralVariant1NoHuffman (kind : LiteralKind) (fieldKeyTableIdx : ℕ)
    (fieldValue : Bytes) : Except Fault Bytes :=
  match encodeInteger true kind.first fieldKeyTableIdx kind.prefixBits with
  | .error e => .error e
  | .ok index =>
    match encodeStringNoHuffman fieldValue with
    | .error e => .error e
    | .ok value =>
      fitBuffer (1 + maxHpackVariableIntegerSize + maxHpackVariableIntegerSize + fieldValue.length)
        (index ++ value)

/-- Variant 1 with Huffman coding. -/
def encodeLiteralVariant1Huffman (kind : LiteralKind) (fieldKeyTableIdx : ℕ) (fieldValue : Bytes)
    (sizeValue : ℕ) : Except Fault Bytes :=
  match encodeInteger kind.indexLimited kind.first fieldKeyTableIdx kind.prefixBits with
  | .error e => .error e
  | .ok index =>
    match encodeStringHuffman fieldValue sizeValue with
    | .error e => .error e
    | .ok value =>
      fitBuffer (1 + maxHpackVariableIntegerSize + maxHpackVariableIntegerSize + sizeValue)
        (index ++ value)

def encodeLiteralVariant1 (kind : LiteralKind) (fieldKeyTableIdx : ℕ) (fieldValue : Bytes)
    (huffmanUsage : Http2HpackHuffmanUsage) : Except Fault Bytes :=
  let sizeValue := hpackHuffmanGetEncodedSize fieldValue
  match huffmanUsage with
  | .never => encodeLiteralVariant1NoHuffman kind fieldKeyTableIdx fieldValue
  | .always => encodeLiteralVariant1Huffman kind fieldKeyTableIdx fieldValue sizeValue
  | .auto =>
    if sizeValue < fieldValue.length then
      encodeLiteralVariant1Huffman kind fieldKeyTableIdx fieldValue sizeValue
    else encodeLiteralVariant1NoHuffman kind fieldKeyTableIdx fieldValue

/-- Variant 2, key as a literal, without Huffman coding. -/
def encodeLiteralVariant2NoHuffman (kind : LiteralKind) (field : HttpHeaderField) :
    Except Fault Bytes :=
  match encodeStringNoHuffman field.key with
  | .error e => .error e
  | .ok key =>
    match encodeStringNoHuffman field.value with
    | .error e => .error e
    | .ok value =>
      fitBuffer (maxHpackVariableIntegerSize + maxHpackVariableIntegerSize + field.key.length +
        field.value.length + 1) (kind.first :: (key ++ value))

/-- Variant 2 with Huffman coding of key and value. -/
def encodeLiteralVariant2Huffman (kind : LiteralKind) (field : HttpHeaderField)
    (sizeKey sizeValue : ℕ) : Except Fault Bytes :=
  match encodeStringHuffman field.key sizeKey with
  | .error e => .error e
  | .ok key =>
    match encodeStringHuffman field.value sizeValue with
    | .error e => .error e
    | .ok value =>
      fitBuffer (maxHpackVariableIntegerSize + maxHpackVariableIntegerSize + sizeKey +
        sizeValue + 1) (kind.first :: (key ++ value))

def encodeLiteralVariant2 (kind : LiteralKind) (field : HttpHeaderField)
    (huffmanUsage : Http2HpackHuffmanUsage) : Except Fault Bytes :=
  let sizeKey := hpackHuffmanGetEncodedSize field.key
  let sizeValue := hpackHuffmanGetEncodedSize field.value
  match huffmanUsage with
  | .never => encodeLiteralVariant2NoHuffman kind field
  | .always => encodeLiteralVariant2Huffman kind field sizeKey sizeValue
  | .auto =>
    if sizeKey + sizeValue < field.key.length + field.value.length then
      encodeLiteralVariant2Huffman kind field sizeKey sizeValue
    else encodeLiteralVariant2NoHuffman kind field

def encodeSingleHeaderFieldLiteralNeverIndexedVariant1 (fieldKeyTableIdx : ℕ) (fieldValue : Bytes)
    (huffmanUsage : Http2HpackHuffmanUsage) : Except Fault Bytes :=
  encodeLiteralVariant1 .neverIndexed fieldKeyTableIdx fieldValue huffmanUsage

def encodeSingleHeaderFieldLiteralNeverIndexedVariant2 (field : HttpHeaderField)
    (huffmanUsage : Http2HpackHuffmanUsage) : Except Fault Bytes :=
  encodeLiteralVariant2 .neverIndexed field huffmanUsage

/-- The encoders with incremental indexing insert the field once its bytes are written. -/
def insertField (compressState : HpackCompressState) (field : HttpHeaderField) :
    Except Fault Bytes → HpackCompressState × Except Fault Bytes
  | .error e => (compressState, .error e)
  | .ok bytes => (insertEntryIntoDynamicTable compressState ⟨field.key, field.value⟩, .ok bytes)

def encodeSingleHeaderFieldLiteralIncrementalIndexingVariant1 (fieldKeyTableIdx : ℕ)
    (field : HttpHeaderField) (huffmanUsage : Http2HpackHuffmanUsage)
    (compressState : HpackCompressState) : HpackCompressState × Except Fault Bytes :=
  insertField compressState field
    (encodeLiteralVariant1 .incrementalIndexing fieldKeyTableIdx field.value huffmanUsage)

def encodeSingleHeaderFieldLiteralIncrementalIndexingVariant2 (field : HttpHeaderField)
    (huffmanUsage : Http2HpackHuffmanUsage) (compressState : HpackCompressState) :
    HpackCompressState × Except Fault Bytes :=
  insertField compressState field (encodeLiteralVariant2 .incrementalIndexing field huffmanUsage)

/-! ## Table lookup -/

inductive TableFindResult where
  | notFound
  | keyFound (index : ℕ)
  | allFound (index : ℕ)
deriving Repr, DecidableEq

/-- What the generated string comparison computes for a list of pairwise different
strings: the position of the string in the list. -/
def fastStringCompare (strings : List Bytes) (str : Bytes) : Option ℕ := strings.findIdx? (· == str)

/-- The rows of the static table with a key, with their indices. -/
def staticTableRows (key : Bytes) : List (ℕ × Option Bytes) :=
  ((List.range hpackStaticHeaderTableSize).zip hpackStaticHeaderTableEntries).filterMap
    fun (i, k, v) => if k == key then some (i + 1, v) else none

/-- `hpack_generated_find_in_static_table_fast`. A key with one row that has a value is
compared with `strncmp` over the length of the row's value; a key with several rows looks
its value up among the values of these rows. -/
def hpackGeneratedFindInStaticTableFast (field : HttpHeaderField) : TableFindResult :=
  match staticTableRows field.key with
  | [] => .notFound
  | [(index, none)] => .keyFound index
  | [(index, some value)] =>
    if value.isPrefixOf field.value then .allFound index else .keyFound index
  | rows =>
    match fastStringCompare (rows.map fun r => r.2.getD []) field.value with
    | some i => .allFound ((rows.map Prod.fst).getD i 0)
    | none => .keyFound ((rows.map Prod.fst).getD 0 0)

/-- `table_entry_matches`, for an entry of the dynamic table. The index is the one the
entry is addressed with. -/
def tableEntryMatchesDynamic (field : HttpHeaderField) (entry : HpackHeaderDynamicEntry)
    (index : ℕ) : TableFindResult :=
  if field.key ≠ entry.key then .notFound
  else if field.value ≠ entry.value then .keyFound index
  else .allFound index

/-- The loop of `find_in_tables` over the dynamic table, from entry `i` on. The first
entry that matches the key is kept unless there is already a result. -/
def findInDynamicTable (field : HttpHeaderField) (table : HpackHeaderDynamicTable) :
    ℕ → ℕ → TableFindResult → TableFindResult
  | 0, _, result => result
  | fuel + 1, i, result =>
    match hpackDynamicTableAt table i with
    | none => result
    | some entry =>
      match tableEntryMatchesDynamic field entry (i + 1 + hpackStaticHeaderTableSize) with
      | .allFound index => .allFound index
      | .keyFound index =>
        findInDynamicTable field table fuel (i + 1)
          (if result = .notFound then .keyFound index else result)
      | .notFound => findInDynamicTable field table fuel (i + 1) result

def findInTables (field : HttpHeaderField) (compressState : HpackCompressState)
    (useAllTables : Bool) : TableFindResult :=
  match hpackGeneratedFindInStaticTableFast field with
  | .allFound index => .allFound index
  | result =>
    if useAllTables then
      findInDynamicTable field compressState.dynamicTable
        (hpackDynamicTableSize compressState.dynamicTable) 0 result
    else result

/-! ## Whole lists -/

inductive Http2HpackTableAddType where
  | none
  | common
  | all
deriving Repr, DecidableEq

/-- `commonHpackKeyNames`. -/
def commonHpackKeyNames : List Bytes :=
  ["date", "cookie", "server", "content-encoding", "host", "user-agent"].map ascii

/-- `hpack_generated_is_common_field_key_fast`: pseudo headers are always common. -/
def hpackGeneratedIsCommonFieldKeyFast (key : Bytes) : Bool :=
  match key with
  | [] => false
  | c :: _ => c == 0x3A || (fastStringCompare commonHpackKeyNames key).isSome

def shouldAddHeaderToTable (field : HttpHeaderField) : Http2HpackTableAddType → Bool
  | .none => false
  | .common => hpackGeneratedIsCommonFieldKeyFast field.key
  | .all => true

def encodeSingleHeaderFieldExtendedAsWhole (field : HttpHeaderField)
    (compressState : HpackCompressState) (huffmanUsage : Http2HpackHuffmanUsage)
    (tableAddType : Http2HpackTableAddType) : HpackCompressState × Except Fault Bytes :=
  if shouldAddHeaderToTable field tableAddType then
    encodeSingleHeaderFieldLiteralIncrementalIndexingVariant2 field huffmanUsage compressState
  else (compressState, encodeSingleHeaderFieldLiteralNeverIndexedVariant2 field huffmanUsage)

def encodeSingleHeaderFieldExtendedWithKeyFromTable (field : HttpHeaderField)
    (compressState : HpackCompressState) (huffmanUsage : Http2HpackHuffmanUsage)
    (tableAddType : Http2HpackTableAddType) (keyTableIdx : ℕ) :
    HpackCompressState × Except Fault Bytes :=
  if shouldAddHeaderToTable field tableAddType then
    encodeSingleHeaderFieldLiteralIncrementalIndexingVariant1 keyTableIdx field huffmanUsage
      compressState
  else
    (compressState,
      encodeSingleHeaderFieldLiteralNeverIndexedVariant1 keyTableIdx field.value huffmanUsage)

def encodeSingleHeaderFieldIndexedHeaderField (entryTableIdx : ℕ) : Except Fault Bytes :=
  match encodeInteger true 0x80 entryTableIdx 7 with
  | .error e => .error e
  | .ok bytes => fitBuffer maxHpackVariableIntegerSize bytes

def encodeSingleHeaderFieldExtended (field : HttpHeaderField) (compressState : HpackCompressState)
    (huffmanUsage : Http2HpackHuffmanUsage) (tableAddType : Http2HpackTableAddType)
    (useAllTables : Bool) : HpackCompressState × Except Fault Bytes :=
  match findInTables field compressState useAllTables with
  | .notFound =>
    encodeSingleHeaderFieldExtendedAsWhole field compressState huffmanUsage tableAddType
  | .keyFound index =>
    encodeSingleHeaderFieldExtendedWithKeyFromTable field compressState huffmanUsage tableAddType
      index
  | .allFound index => (compressState, encodeSingleHeaderFieldIndexedHeaderField index)

/-- The loop the two list encoders share: the bytes of the fields are put one after the
other onto `result`, and the first field that fails ends it. -/
def compressLoop
    (encode : HttpHeaderField → HpackCompressState → HpackCompressState × Except Fault Bytes) :
    List HttpHeaderField → HpackCompressState → Bytes → HpackCompressState × Except Fault Bytes
  | [], compressState, result => (compressState, .ok result)
  | field :: fields, compressState, result =>
    match encode field compressState with
    | (compressState, .error e) => (compressState, .error e)
    | (compressState, .ok bytes) => compressLoop encode fields compressState (result ++ bytes)

def http2HpackCompressDataSimple (headerFields : List HttpHeaderField)
    (compressState : HpackCompressState) (huffmanUsage : Http2HpackHuffmanUsage) :
    HpackCompressState × Except Fault Bytes :=
  compressLoop
    (fun field s => (s, encodeSingleHeaderFieldLiteralNeverIndexedVariant2 field huffmanUsage))
    headerFields compressState []

def http2HpackCompressDataExtended (headerFields : List HttpHeaderField)
    (compressState : HpackCompressState) (huffmanUsage : Http2HpackHuffmanUsage)
    (tableAddType : Http2HpackTableAddType) (useAllTables : Bool) :
    HpackCompressState × Except Fault Bytes :=
  compressLoop
    (fun field s => encodeSingleHeaderFieldExtended field s huffmanUsage tableAddType useAllTables)
    headerFields compressState []

inductive Http2HpackCompressType where
  | noTableUsage
  | staticTableUsage
  | allTablesUsage
deriving Repr, DecidableEq

structure Http2HpackCompressOptions where
  huffmanUsage : Http2HpackHuffmanUsage
  type : Http2HpackCompressType
  tableAddType : Http2HpackTableAddType
deriving Repr, DecidableEq

/-- `http2_hpack_compress_data`. The empty list gives a buffer without bytes, which has
no data pointer either. -/
def http2HpackCompressData (compressState : HpackCompressState)
    (headerFields : List HttpHeaderField) (options : Http2HpackCompressOptions) :
    HpackCompressState × Except Fault Bytes :=
  match options.type with
  | .noTableUsage => http2HpackCompressDataSimple headerFields compressState options.huffmanUsage
  | .staticTableUsage =>
    http2HpackCompressDataExtended headerFields compressState options.huffmanUsage
      options.tableAddType false
  | .allTablesUsage =>
    http2HpackCompressDataExtended headerFields compressState options.huffmanUsage
      options.tableAddType true

/-! ## The limit of the table during compression -/

theorem insertField_max (s : HpackCompressState) (field : HttpHeaderField)
    (r : Except Fault Bytes) :
    (insertField s field r).1.maxDynamicTableByteSize = s.maxDynamicTableByteSize := by
  cases r with
  | error e => rfl
  | ok bytes => exact insertEntryIntoDynamicTable_max _ _

theorem encodeSingleHeaderFieldExtended_max (field : HttpHeaderField) (s : HpackCompressState)
    (huffmanUsage : Http2HpackHuffmanUsage) (tableAddType : Http2HpackTableAddType)
    (useAllTables : Bool) :
    (encodeSingleHeaderFieldExtended field s huffmanUsage tableAddType
      useAllTables).1.maxDynamicTableByteSize = s.maxDynamicTableByteSize := by
  unfold encodeSingleHeaderFieldExtended
  split
  · unfold encodeSingleHeaderFieldExtendedAsWhole
    split
    · exact insertField_max _ _ _
    · rfl
  · unfold encodeSingleHeaderFieldExtendedWithKeyFromTable
    split
    · exact insertField_max _ _ _
    · rfl
  · rfl

theorem compressLoop_max
    {encode : HttpHeaderField → HpackCompressState → HpackCompressState × Except Fault Bytes}
    (hencode : ∀ field s, (encode field s).1.maxDynamicTableByteSize = s.maxDynamicTableByteSize)
    (fields : List HttpHeaderField) (s : HpackCompressState) (result : Bytes) :
    (compressLoop encode fields s result).1.maxDynamicTableByteSize =
      s.maxDynamicTableByteSize := by
  induction fields generalizing s result with
  | nil => rfl
  | cons field fields ih =>
    have hf := hencode field s
    unfold compressLoop
    split
    · rename_i s' e heq
      rw [heq] at hf
      exact hf
    · rename_i s' bytes heq
      rw [heq] at hf
      rw [ih, hf]

/-- **Compressing a header list keeps the limit of the table.** -/
theorem http2HpackCompressData_max (s : HpackCompressState) (fields : List HttpHeaderField)
    (options : Http2HpackCompressOptions) :
    (http2HpackCompressData s fields options).1.maxDynamicTableByteSize =
      s.maxDynamicTableByteSize := by
  unfold http2HpackCompressData
  split
  · exact compressLoop_max (fun _ _ => rfl) _ _ _
  · exact compressLoop_max (fun _ _ => encodeSingleHeaderFieldExtended_max ..) _ _ _
  · exact compressLoop_max (fun _ _ => encodeSingleHeaderFieldExtended_max ..) _ _ _

end SimpleServer.Hpack
