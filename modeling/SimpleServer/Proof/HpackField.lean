import SimpleServer.Proof.HpackLiteral

/-!
# A single header field

A field is written as an index of the tables, or as a literal whose key may come from the
tables. With the same table on both sides, the decoder finds what the encoder meant.

* `findInTables_ok`: an index that is found is that of the field, or of its key. The exception is
  a value that extends the one the static table has for `accept-encoding`.
* `encodeField_written`: what a field is written as is read as the field, and changes the
  table in the same way.
-/

namespace SimpleServer.Hpack

open Lib

/-! ## Lookup -/

/-- `accept-encoding`, the only key with a single row that has a value. -/
def acceptEncoding : Bytes := ascii "accept-encoding"

def gzipDeflate : Bytes := ascii "gzip, deflate"

/-- A value for `accept-encoding` that goes on after the one of the static table. -/
def ExtendsStaticValue (field : HttpHeaderField) : Prop :=
  field.key = acceptEncoding ∧ gzipDeflate <+: field.value ∧ field.value ≠ gzipDeflate

instance (field : HttpHeaderField) : Decidable (ExtendsStaticValue field) :=
  inferInstanceAs (Decidable (_ ∧ _ ∧ _))

/-- What the decoder finds under the index of a lookup. -/
def LookupOk (state : HpackDynamicTableState) (field : HttpHeaderField) : TableFindResult → Prop
  | .notFound => True
  | .keyFound index =>
    index ≠ 0 ∧ ∃ value, hpackGetTableEntryAt state index = some (field.key, value)
  | .allFound index =>
    index ≠ 0 ∧ (¬ ExtendsStaticValue field →
      hpackGetTableEntryAt state index = some (field.key, some field.value))

variable {state : HpackDynamicTableState} {field : HttpHeaderField}

/-- The rows of a key are the entries of the table with this key. -/
theorem mem_staticTableRows {key : Bytes} {i : ℕ} {value : Option Bytes} :
    (i, value) ∈ staticTableRows key ↔
      i ≠ 0 ∧ hpackStaticHeaderTableEntries[i - 1]? = some (key, value) := by
  have hsize : hpackStaticHeaderTableEntries.length = hpackStaticHeaderTableSize := by decide
  unfold staticTableRows
  rw [List.mem_filterMap]
  constructor
  · rintro ⟨⟨j, key', value'⟩, hmem, hrow⟩
    dsimp only at hrow
    split_ifs at hrow with hkey
    obtain ⟨rfl, rfl⟩ := Prod.mk.inj (Option.some.inj hrow)
    obtain ⟨k, hk⟩ := List.mem_iff_getElem?.1 hmem
    obtain ⟨hrange, hentry⟩ := List.getElem?_zip_eq_some.1 hk
    obtain ⟨hlt, hjk⟩ := List.getElem?_eq_some_iff.1 hrange
    rw [List.getElem_range] at hjk
    subst hjk
    rw [eq_of_beq hkey] at hentry
    exact ⟨Nat.succ_ne_zero _, hentry⟩
  · rintro ⟨hpos, hentry⟩
    obtain ⟨hlt, -⟩ := List.getElem?_eq_some_iff.1 hentry
    refine ⟨(i - 1, key, value), ?_, ?_⟩
    · apply List.mem_iff_getElem?.2
      refine ⟨i - 1, List.getElem?_zip_eq_some.2 ⟨?_, hentry⟩⟩
      rw [List.getElem?_range (by omega)]
    · dsimp only
      rw [if_pos (beq_self_eq_true key), Nat.sub_add_cancel (by omega)]

/-- The decoder finds the rows under their indices. -/
theorem staticTableRows_entry (state : HpackDynamicTableState) {key : Bytes}
    {row : ℕ × Option Bytes} (h : row ∈ staticTableRows key) :
    row.1 ≠ 0 ∧ (key, row.2) ∈ hpackStaticHeaderTableEntries ∧
      hpackGetTableEntryAt state row.1 = some (key, row.2) := by
  obtain ⟨i, value⟩ := row
  have hsize : hpackStaticHeaderTableEntries.length = hpackStaticHeaderTableSize := by decide
  obtain ⟨hpos, hentry⟩ := mem_staticTableRows.1 h
  obtain ⟨hlt, -⟩ := List.getElem?_eq_some_iff.1 hentry
  refine ⟨hpos, List.mem_of_getElem? hentry, ?_⟩
  unfold hpackGetTableEntryAt
  dsimp only
  rw [if_neg hpos, if_pos (by omega)]
  exact hentry

/-- A key with a single row that has a value is `accept-encoding`, and the rows of a key with
several rows all have values. -/
theorem staticTable_rows : ∀ entry ∈ hpackStaticHeaderTableEntries,
    if (staticTableRows entry.1).length = 1 then
      entry.2 = none ∨ entry = (acceptEncoding, some gzipDeflate)
    else entry.2 ≠ none := by
  decide +kernel

theorem hpackGeneratedFindInStaticTableFast_ok (state : HpackDynamicTableState)
    (field : HttpHeaderField) :
    LookupOk state field (hpackGeneratedFindInStaticTableFast field) := by
  unfold hpackGeneratedFindInStaticTableFast
  split
  · trivial
  · rename_i index hrows
    obtain ⟨hindex, -, hentry⟩ := staticTableRows_entry state
      (by rw [hrows]; exact List.mem_singleton_self _)
    exact ⟨hindex, none, hentry⟩
  · rename_i index value hrows
    obtain ⟨hindex, hmem, hentry⟩ := staticTableRows_entry state
      (by rw [hrows]; exact List.mem_singleton_self _)
    dsimp only at hindex hentry hmem
    split_ifs with hprefix
    · refine ⟨hindex, fun hnot => ?_⟩
      have hrow := staticTable_rows _ hmem
      rw [if_pos (by rw [hrows]; rfl)] at hrow
      obtain ⟨hkey, hvalue⟩ := Prod.mk.inj (hrow.resolve_left nofun)
      -- the generated lookup compares only as many bytes as the row has
      have hsame : field.value = value := by
        by_contra hne
        rw [Option.some.inj hvalue] at hprefix hne
        exact hnot ⟨hkey, List.isPrefixOf_iff_prefix.1 hprefix, hne⟩
      rw [hentry, hsame]
    · exact ⟨hindex, some value, hentry⟩
  · rename_i rows hnil hnone hsome
    -- several rows: the values are compared as a whole, and the first row gives the key
    have hlength : (staticTableRows field.key).length ≠ 1 := by
      intro hone
      obtain ⟨⟨index, value⟩, hrow⟩ := List.length_eq_one_iff.1 hone
      cases value with
      | none => exact hnone index hrow
      | some value => exact hsome index value hrow
    have hfst : ∀ (i : ℕ) (hi : i < (staticTableRows field.key).length),
        ((staticTableRows field.key).map Prod.fst).getD i 0 = (staticTableRows field.key)[i].1 := by
      intro i hi
      rw [List.getD_eq_getElem _ _ (by rw [List.length_map]; exact hi), List.getElem_map]
    split
    · rename_i i hfind
      obtain ⟨hi, hvalue, -⟩ := List.findIdx?_eq_some_iff_getElem.1 hfind
      rw [List.length_map] at hi
      rw [List.getElem_map, beq_iff_eq] at hvalue
      obtain ⟨hindex, hmem, hentry⟩ := staticTableRows_entry state (List.getElem_mem hi)
      have hrow := staticTable_rows _ hmem
      rw [if_neg hlength] at hrow
      obtain ⟨value, hsome⟩ := Option.ne_none_iff_exists'.1 hrow
      dsimp only at hsome
      rw [hsome, Option.getD_some] at hvalue
      rw [hfst i hi]
      exact ⟨hindex, fun _ => by rw [hentry, hsome, hvalue]⟩
    · have hpos := List.length_pos_of_ne_nil (fun h => hnil h)
      obtain ⟨hindex, -, hentry⟩ := staticTableRows_entry state (List.getElem_mem hpos)
      rw [hfst 0 hpos]
      exact ⟨hindex, _, hentry⟩

/-- The index of an entry of the dynamic table. -/
theorem hpackGetTableEntryAt_dynamic {i : ℕ} {entry : HpackHeaderDynamicEntry}
    (h : hpackDynamicTableAt state.dynamicTable i = some entry) :
    hpackGetTableEntryAt state (i + 1 + hpackStaticHeaderTableSize) =
      some (entry.key, some entry.value) := by
  have hcount : ¬ hpackDynamicTableSize state.dynamicTable ≤ i := by
    intro hle
    rw [hpackDynamicTableAt, if_pos (show i ≥ state.dynamicTable.count from hle)] at h
    cases h
  unfold hpackGetTableEntryAt
  dsimp only
  rw [if_neg (by omega), if_neg (by omega),
    show i + 1 + hpackStaticHeaderTableSize - hpackStaticHeaderTableSize - 1 = i by omega,
    if_neg hcount, h, Option.map_some]

theorem findInDynamicTable_ok (state : HpackDynamicTableState) (field : HttpHeaderField) :
    ∀ (fuel i : ℕ) (result : TableFindResult), LookupOk state field result →
      LookupOk state field (findInDynamicTable field state.dynamicTable fuel i result) := by
  intro fuel
  induction fuel with
  | zero => exact fun _ _ h => h
  | succ fuel ih =>
    intro i result h
    unfold findInDynamicTable
    split
    · exact h
    · rename_i entry hentry
      have hget := hpackGetTableEntryAt_dynamic hentry
      unfold tableEntryMatchesDynamic
      by_cases hkey : field.key = entry.key
      · rw [if_neg (not_not_intro hkey)]
        by_cases hvalue : field.value = entry.value
        · rw [if_neg (not_not_intro hvalue)]
          refine ⟨by omega, fun _ => ?_⟩
          rw [hget, hkey, hvalue]
        · rw [if_pos hvalue]
          refine ih (i + 1) _ ?_
          -- the first entry with the key is kept, unless the static table has the key
          split_ifs
          · exact ⟨by omega, _, by rw [hget, hkey]⟩
          · exact h
      · rw [if_pos hkey]
        exact ih (i + 1) result h

/-- **What is found in the tables is there.** -/
theorem findInTables_ok (state : HpackDynamicTableState) (field : HttpHeaderField)
    (useAllTables : Bool) : LookupOk state field (findInTables field state useAllTables) := by
  have hstatic := hpackGeneratedFindInStaticTableFast_ok state field
  unfold findInTables
  split
  · rename_i index hfound
    rwa [hfound] at hstatic
  · split_ifs
    · exact findInDynamicTable_ok state field _ 0 _ hstatic
    · exact hstatic

/-- A value that goes on after the one of the static table is taken for it. -/
example : hpackGeneratedFindInStaticTableFast ⟨acceptEncoding, ascii "gzip, deflate, br"⟩ =
    .allFound 16 := by decide +kernel

/-! ## Literals -/

/-- The kind of literal a field is written as. -/
def literalKind (add : Bool) : LiteralKind :=
  if add then .incrementalIndexing else .neverIndexed

/-- The table after a literal of that kind. -/
def literalState (add : Bool) (state : HpackDynamicTableState) (field : HttpHeaderField) :
    HpackDynamicTableState :=
  if add then insertEntryIntoDynamicTable state ⟨field.key, field.value⟩ else state

/-- An encoder uses Huffman coding for strings of this length. -/
def usesHuffman (usage : Http2HpackHuffmanUsage) (size length : ℕ) : Bool :=
  match usage with
  | .never => false
  | .always => true
  | .auto => size < length

theorem literalKind_first (add : Bool) :
    (literalKind add).first.toNat % 2 ^ (literalKind add).prefixBits = 0 ∧
      (literalKind add).prefixBits ≤ 8 ∧ 0 < 2 ^ (literalKind add).prefixBits - 1 := by
  cases add with
  | false => decide
  | true => decide

theorem fitBuffer_ok {maxSize : ℕ} {bytes : Bytes} (h : bytes.length ≤ maxSize) :
    fitBuffer maxSize bytes = .ok bytes := if_neg (by omega)

theorem encodeLiteralVariant1_eq (kind : LiteralKind) (index : ℕ) (value : Bytes)
    (usage : Http2HpackHuffmanUsage) :
    encodeLiteralVariant1 kind index value usage =
      if usesHuffman usage (hpackHuffmanGetEncodedSize value) value.length then
        encodeLiteralVariant1Huffman kind index value (hpackHuffmanGetEncodedSize value)
      else encodeLiteralVariant1NoHuffman kind index value := by
  cases usage with
  | never => rfl
  | always => rfl
  | auto =>
    unfold encodeLiteralVariant1 usesHuffman
    simp only [decide_eq_true_eq]

theorem encodeLiteralVariant2_eq (kind : LiteralKind) (field : HttpHeaderField)
    (usage : Http2HpackHuffmanUsage) :
    encodeLiteralVariant2 kind field usage =
      if usesHuffman usage
          (hpackHuffmanGetEncodedSize field.key + hpackHuffmanGetEncodedSize field.value)
          (field.key.length + field.value.length) then
        encodeLiteralVariant2Huffman kind field (hpackHuffmanGetEncodedSize field.key)
          (hpackHuffmanGetEncodedSize field.value)
      else encodeLiteralVariant2NoHuffman kind field := by
  cases usage with
  | never => rfl
  | always => rfl
  | auto =>
    unfold encodeLiteralVariant2 usesHuffman
    simp only [decide_eq_true_eq]

/-- A literal whose key is an index. -/
theorem encodeLiteralVariant1_written (add : Bool) {index : ℕ} {value : Bytes}
    {usage : Http2HpackHuffmanUsage} {huffman : Bool}
    (huses : usesHuffman usage (hpackHuffmanGetEncodedSize value) value.length = huffman)
    (hindex : IntegerOk (literalKind add).prefixBits index) (hvalue : StringOk huffman value) :
    ∃ indexBytes valueBytes,
      encodeLiteralVariant1 (literalKind add) index value usage = .ok (indexBytes ++ valueBytes) ∧
      WrittenInteger (literalKind add).first (literalKind add).prefixBits index indexBytes ∧
      WrittenString huffman value valueBytes := by
  obtain ⟨hfirst, hbits, -⟩ := literalKind_first add
  obtain ⟨valueBytes, hencode, hwritten⟩ := encodeString_roundTrip hvalue
  have hshort := hwritten.short
  have hmax : maxHpackVariableIntegerSize = 10 := by decide
  rw [encodeLiteralVariant1_eq, huses]
  cases huffman with
  | true =>
    obtain ⟨indexBytes, hinteger, hindexWritten⟩ := encodeInteger_roundTrip
      (literalKind add).indexLimited (literalKind add).first hfirst hbits hindex
    refine ⟨indexBytes, valueBytes, ?_, hindexWritten, hwritten⟩
    have hindexShort := hindexWritten.short
    rw [encodeString, if_pos rfl] at hencode
    rw [stringSize, if_pos rfl] at hshort
    rw [if_pos rfl, encodeLiteralVariant1Huffman, hinteger, hencode]
    exact fitBuffer_ok (by rw [List.length_append]; omega)
  | false =>
    obtain ⟨indexBytes, hinteger, hindexWritten⟩ := encodeInteger_roundTrip true
      (literalKind add).first hfirst hbits hindex
    refine ⟨indexBytes, valueBytes, ?_, hindexWritten, hwritten⟩
    have hindexShort := hindexWritten.short
    rw [encodeString, if_neg Bool.false_ne_true] at hencode
    rw [stringSize, if_neg Bool.false_ne_true] at hshort
    rw [if_neg Bool.false_ne_true, encodeLiteralVariant1NoHuffman, hinteger, hencode]
    exact fitBuffer_ok (by rw [List.length_append]; omega)

/-- A literal whose key is a literal of its own. -/
theorem encodeLiteralVariant2_written (kind : LiteralKind) {field : HttpHeaderField}
    {usage : Http2HpackHuffmanUsage} {huffman : Bool}
    (huses : usesHuffman usage
      (hpackHuffmanGetEncodedSize field.key + hpackHuffmanGetEncodedSize field.value)
      (field.key.length + field.value.length) = huffman)
    (hkey : StringOk huffman field.key) (hvalue : StringOk huffman field.value) :
    ∃ keyBytes valueBytes,
      encodeLiteralVariant2 kind field usage = .ok (kind.first :: (keyBytes ++ valueBytes)) ∧
      WrittenString huffman field.key keyBytes ∧ WrittenString huffman field.value valueBytes := by
  obtain ⟨keyBytes, hencodeKey, hwrittenKey⟩ := encodeString_roundTrip hkey
  obtain ⟨valueBytes, hencode, hwritten⟩ := encodeString_roundTrip hvalue
  refine ⟨keyBytes, valueBytes, ?_, hwrittenKey, hwritten⟩
  have hshortKey := hwrittenKey.short
  have hshort := hwritten.short
  have hmax : maxHpackVariableIntegerSize = 10 := by decide
  rw [encodeLiteralVariant2_eq, huses]
  cases huffman with
  | true =>
    rw [encodeString, if_pos rfl] at hencodeKey hencode
    rw [stringSize, if_pos rfl] at hshortKey hshort
    rw [if_pos rfl, encodeLiteralVariant2Huffman, hencodeKey, hencode]
    exact fitBuffer_ok (by rw [List.length_cons, List.length_append]; omega)
  | false =>
    rw [encodeString, if_neg Bool.false_ne_true] at hencodeKey hencode
    rw [stringSize, if_neg Bool.false_ne_true] at hshortKey hshort
    rw [if_neg Bool.false_ne_true, encodeLiteralVariant2NoHuffman, hencodeKey, hencode]
    exact fitBuffer_ok (by rw [List.length_cons, List.length_append]; omega)

/-! ## Reading an item -/

/-- The decoder tells the kinds of items apart by the bits before the prefix. -/
theorem item_bits (add : Bool) {low : ℕ} (hlow : low < 2 ^ (literalKind add).prefixBits) :
    ((literalKind add).first ||| UInt8.ofNat low) &&& 0x80 = 0 ∧
      (((literalKind add).first ||| UInt8.ofNat low) &&& 0xC0 == 0x40) = add ∧
      (add = false → (((literalKind add).first ||| UInt8.ofNat low) &&& 0xE0 == 0x20) = false ∧
        (((literalKind add).first ||| UInt8.ofNat low) &&& 0xF0 == 0x10) = true) := by
  cases add with
  | true =>
    have key : ∀ low : Fin 64, ((0x40 : UInt8) ||| UInt8.ofNat low.val) &&& 0x80 = 0 ∧
        (((0x40 : UInt8) ||| UInt8.ofNat low.val) &&& 0xC0 == 0x40) = true := by decide +kernel
    exact ⟨(key ⟨low, hlow⟩).1, (key ⟨low, hlow⟩).2, nofun⟩
  | false =>
    have key : ∀ low : Fin 16, ((0x10 : UInt8) ||| UInt8.ofNat low.val) &&& 0x80 = 0 ∧
        (((0x10 : UInt8) ||| UInt8.ofNat low.val) &&& 0xC0 == 0x40) = false ∧
        (((0x10 : UInt8) ||| UInt8.ofNat low.val) &&& 0xE0 == 0x20) = false ∧
        (((0x10 : UInt8) ||| UInt8.ofNat low.val) &&& 0xF0 == 0x10) = true := by decide +kernel
    obtain ⟨h1, h2, h3⟩ := key ⟨low, hlow⟩
    exact ⟨h1, h2, fun _ => h3⟩

/-- A literal that is read changes the table as its kind says. -/
theorem parseItem_literal (add : Bool) {low : ℕ} {data : Bytes} {d d' : DecodeState}
    (hlow : low < 2 ^ (literalKind add).prefixBits)
    (hparse : parseHpackLiteralHeaderField (literalKind add).prefixBits data d = .ok (field, d')) :
    parseItem data ((literalKind add).first ||| UInt8.ofNat low) d =
      .ok { d' with state := literalState add d'.state field } := by
  obtain ⟨hindexed, hadd, hnever⟩ := item_bits add hlow
  unfold parseItem
  rw [hindexed, if_neg (by decide), hadd]
  cases add with
  | true =>
    have hparse : parseHpackLiteralHeaderField 6 data d = .ok (field, d') := hparse
    rw [if_pos rfl, parseHpackLiteralHeaderFieldWithIncrementalIndexing, hparse]
    rfl
  | false =>
    have hparse : parseHpackLiteralHeaderField 4 data d = .ok (field, d') := hparse
    obtain ⟨hupdate, hnever⟩ := hnever rfl
    rw [if_neg Bool.false_ne_true, hupdate, if_neg Bool.false_ne_true, hnever, if_pos rfl,
      parseHpackLiteralHeaderFieldNeverIndexed, hparse]
    rfl

/-- What an encoded field is: it is read as the field and changes the table. An empty
value must not be at the end of the data, unless the field is said to be the last one. -/
structure WrittenField (state : HpackDynamicTableState) (field : HttpHeaderField) (last : Bool)
    (state' : HpackDynamicTableState) (bytes : Bytes) : Prop where
  positive : 0 < bytes.length
  read : ∀ data pos rest headers, data.drop pos = bytes ++ rest → (rest = [] → last = true) →
    ∃ byte, data[pos]? = some byte ∧
      parseItem data byte ⟨pos, headers, state⟩ =
        .ok ⟨pos + bytes.length, headers ++ [field], state'⟩

variable {last huffman add : Bool}

/-- A literal is read as its parts are. -/
theorem parseHpackLiteralHeaderField_parts {prefixBits index posKey posValue posEnd : ℕ}
    {data key value : Bytes} {d : DecodeState}
    (hindex : decodeHpackVariableInteger d.pos data prefixBits = .ok (index, posKey))
    (hkey : parseLiteralKey data d.state index posKey = .ok (key, posValue))
    (hend : posValue < data.length)
    (hvalue : parseLiteralStringValue posValue data = .ok (value, posEnd)) :
    parseHpackLiteralHeaderField prefixBits data d =
      .ok (⟨key, value⟩, { d with pos := posEnd, headers := d.headers ++ [⟨key, value⟩] }) := by
  unfold parseHpackLiteralHeaderField
  rw [hindex]
  dsimp only
  rw [hkey]
  dsimp only
  rw [if_neg (by omega), hvalue]

/-- A literal whose key is an index. -/
theorem writtenField_variant1 {index : ℕ} {indexBytes valueBytes : Bytes}
    {entryValue : Option Bytes}
    (hindex : WrittenInteger (literalKind add).first (literalKind add).prefixBits index indexBytes)
    (hvalue : WrittenString huffman field.value valueBytes) (hne : index ≠ 0)
    (hentry : hpackGetTableEntryAt state index = some (field.key, entryValue))
    (hlast : last = true → field.value ≠ []) :
    WrittenField state field last (literalState add state field) (indexBytes ++ valueBytes) := by
  obtain ⟨low, tail, hlow, hhead⟩ := hindex.head
  have hpositive : 0 < indexBytes.length := by rw [hhead, List.length_cons]; omega
  have hvaluePositive := hvalue.positive
  refine ⟨by rw [List.length_append]; omega, ?_⟩
  intro data pos rest headers hdata hrest
  rw [List.append_assoc] at hdata
  have hend := length_of_drop hdata hpositive
  rw [List.length_append] at hend
  have hafter := drop_of_drop hdata
  have hnotEnd : field.value ≠ [] ∨ rest ≠ [] := by
    by_cases hnil : rest = []
    · exact .inl (hlast (hrest hnil))
    · exact .inr hnil
  have hbyte : data[pos]? = some ((literalKind add).first ||| UInt8.ofNat low) := by
    rw [hhead] at hdata
    exact getElem?_of_drop hdata
  have hkey : parseLiteralKey data state index (pos + indexBytes.length) =
      .ok (field.key, pos + indexBytes.length) := by
    rw [parseLiteralKey, if_neg hne, hentry]
  have hparse := parseHpackLiteralHeaderField_parts (d := ⟨pos, headers, state⟩)
    (hindex.read data pos _ hdata) hkey (by omega) (hvalue.read data _ rest hafter hnotEnd)
  refine ⟨_, hbyte, ?_⟩
  rw [parseItem_literal add hlow hparse, List.length_append, Nat.add_assoc]

/-- A literal whose key is a literal of its own. -/
theorem writtenField_variant2 (add : Bool) {keyBytes valueBytes : Bytes}
    (hkey : WrittenString huffman field.key keyBytes)
    (hvalue : WrittenString huffman field.value valueBytes)
    (hlast : last = true → field.value ≠ []) :
    WrittenField state field last (literalState add state field)
      ((literalKind add).first :: (keyBytes ++ valueBytes)) := by
  have hkeyPositive := hkey.positive
  have hvaluePositive := hvalue.positive
  refine ⟨Nat.succ_pos _, ?_⟩
  intro data pos rest headers hdata hrest
  have hend := length_of_drop hdata (Nat.succ_pos _)
  rw [List.length_cons, List.length_append] at hend
  have hbyte := getElem?_of_drop hdata
  have hafter : data.drop (pos + 1) = keyBytes ++ (valueBytes ++ rest) := by
    rw [drop_succ_of_drop hdata]
    exact List.append_assoc ..
  have hafterKey := drop_of_drop hafter
  have hnotEnd : field.value ≠ [] ∨ rest ≠ [] := by
    by_cases hnil : rest = []
    · exact .inl (hlast (hrest hnil))
    · exact .inr hnil
  have hsomeValue : valueBytes ++ rest ≠ [] := by
    intro hnil
    rw [(List.append_eq_nil_iff.1 hnil).1, List.length_nil] at hvaluePositive
    omega
  -- a first byte without index bits is the index 0
  have hindex : decodeHpackVariableInteger pos data (literalKind add).prefixBits =
      .ok (0, pos + 1) := by
    obtain ⟨hfirst, -, hmask⟩ := literalKind_first add
    unfold decodeHpackVariableInteger
    rw [hbyte]
    dsimp only
    rw [hfirst, if_pos hmask]
  have hliteral : parseLiteralKey data state 0 (pos + 1) =
      .ok (field.key, pos + 1 + keyBytes.length) := by
    rw [parseLiteralKey, if_pos rfl]
    exact hkey.read data (pos + 1) _ hafter (.inr hsomeValue)
  have hparse := parseHpackLiteralHeaderField_parts (d := ⟨pos, headers, state⟩) hindex hliteral
    (by omega) (hvalue.read data _ rest hafterKey hnotEnd)
  refine ⟨_, hbyte, ?_⟩
  have hitem := parseItem_literal add (Nat.two_pow_pos _) hparse
  rw [show (literalKind add).first ||| UInt8.ofNat 0 = (literalKind add).first from
    UInt8.or_zero] at hitem
  rw [hitem, List.length_cons, List.length_append,
    show pos + 1 + keyBytes.length + valueBytes.length =
      pos + (keyBytes.length + valueBytes.length + 1) by omega]

/-- A field that is an entry of the tables. -/
theorem encodeSingleHeaderFieldIndexedHeaderField_written {index : ℕ} (hne : index ≠ 0)
    (hindex : IntegerOk 7 index)
    (hentry : hpackGetTableEntryAt state index = some (field.key, some field.value)) :
    ∃ bytes, encodeSingleHeaderFieldIndexedHeaderField index = .ok bytes ∧
      WrittenField state field last state bytes := by
  obtain ⟨bytes, hencode, hwritten⟩ := encodeInteger_roundTrip true 0x80 (by decide) (by decide)
    hindex
  have hshort := hwritten.short
  have hmax : maxHpackVariableIntegerSize = 10 := by decide
  obtain ⟨low, tail, hlow, hhead⟩ := hwritten.head
  refine ⟨bytes, ?_, by rw [hhead, List.length_cons]; omega, ?_⟩
  · rw [encodeSingleHeaderFieldIndexedHeaderField, hencode]
    exact fitBuffer_ok (by omega)
  · intro data pos rest headers hdata _
    have hread := hwritten.read data pos rest hdata
    have hbyte : data[pos]? = some ((0x80 : UInt8) ||| UInt8.ofNat low) := by
      rw [hhead] at hdata
      exact getElem?_of_drop hdata
    refine ⟨_, hbyte, ?_⟩
    unfold parseItem
    -- the top bit tells an index from a literal, as it tells Huffman coding in a string
    rw [if_pos (isHuffman_iff hlow).2, parseHpackIndexedHeaderField, hread]
    dsimp only
    rw [if_neg hne, hentry]
    rfl

/-! ## Fields as the options say -/

/-- What the loop does with a field. -/
def encodeField (options : Http2HpackCompressOptions) (field : HttpHeaderField)
    (state : HpackCompressState) : HpackCompressState × Except Fault Bytes :=
  match options.type with
  | .noTableUsage =>
    (state, encodeSingleHeaderFieldLiteralNeverIndexedVariant2 field options.huffmanUsage)
  | .staticTableUsage =>
    encodeSingleHeaderFieldExtended field state options.huffmanUsage options.tableAddType false
  | .allTablesUsage =>
    encodeSingleHeaderFieldExtended field state options.huffmanUsage options.tableAddType true

theorem http2HpackCompressData_eq (state : HpackCompressState) (fields : List HttpHeaderField)
    (options : Http2HpackCompressOptions) :
    http2HpackCompressData state fields options =
      compressLoop (encodeField options) fields state [] := by
  obtain ⟨huffmanUsage, type, tableAddType⟩ := options
  cases type with
  | noTableUsage => rfl
  | staticTableUsage => rfl
  | allTablesUsage => rfl

/-- Where a field is found, if the options allow to look. -/
def lookup (options : Http2HpackCompressOptions) (state : HpackCompressState)
    (field : HttpHeaderField) : TableFindResult :=
  match options.type with
  | .noTableUsage => .notFound
  | .staticTableUsage => findInTables field state false
  | .allTablesUsage => findInTables field state true

/-- A literal of this field is added to the table. -/
def addsField (options : Http2HpackCompressOptions) (field : HttpHeaderField) : Bool :=
  match options.type with
  | .noTableUsage => false
  | _ => shouldAddHeaderToTable field options.tableAddType

/-- The value of a literal whose key is an index is Huffman coded. -/
def valueHuffman (options : Http2HpackCompressOptions) (field : HttpHeaderField) : Bool :=
  usesHuffman options.huffmanUsage (hpackHuffmanGetEncodedSize field.value) field.value.length

/-- Key and value of a literal are Huffman coded. -/
def fieldHuffman (options : Http2HpackCompressOptions) (field : HttpHeaderField) : Bool :=
  usesHuffman options.huffmanUsage
    (hpackHuffmanGetEncodedSize field.key + hpackHuffmanGetEncodedSize field.value)
    (field.key.length + field.value.length)

/-- **What the codec asks of a field**: a field found in the tables must not be a value that goes
on after the one of the static table, the last literal of a list must not have an empty value,
and integers and Huffman coded strings must be such that the decoder can read them. -/
def FieldOk (options : Http2HpackCompressOptions) (state : HpackCompressState)
    (field : HttpHeaderField) (last : Bool) : Prop :=
  match lookup options state field with
  | .allFound index => ¬ ExtendsStaticValue field ∧ IntegerOk 7 index
  | .keyFound index =>
    IntegerOk (literalKind (addsField options field)).prefixBits index ∧
      StringOk (valueHuffman options field) field.value ∧ (last = true → field.value ≠ [])
  | .notFound =>
    StringOk (fieldHuffman options field) field.key ∧
      StringOk (fieldHuffman options field) field.value ∧ (last = true → field.value ≠ [])

instance (options : Http2HpackCompressOptions) (state : HpackCompressState)
    (field : HttpHeaderField) (last : Bool) : Decidable (FieldOk options state field last) :=
  match h : lookup options state field with
  | .allFound index =>
    decidable_of_iff (¬ ExtendsStaticValue field ∧ IntegerOk 7 index) (by rw [FieldOk, h])
  | .keyFound index =>
    decidable_of_iff (IntegerOk (literalKind (addsField options field)).prefixBits index ∧
      StringOk (valueHuffman options field) field.value ∧ (last = true → field.value ≠ []))
      (by rw [FieldOk, h])
  | .notFound =>
    decidable_of_iff (StringOk (fieldHuffman options field) field.key ∧
      StringOk (fieldHuffman options field) field.value ∧ (last = true → field.value ≠ []))
      (by rw [FieldOk, h])

/-- The table after the bytes of a literal are written. -/
def writeLiteral (add : Bool) (state : HpackCompressState) (field : HttpHeaderField) :
    Except Fault Bytes → HpackCompressState × Except Fault Bytes
  | .error e => (state, .error e)
  | .ok bytes => (literalState add state field, .ok bytes)

theorem insertField_eq (state : HpackCompressState) (field : HttpHeaderField)
    (result : Except Fault Bytes) :
    insertField state field result = writeLiteral true state field result := by
  cases result with
  | error e => rfl
  | ok bytes => rfl

theorem neverIndexed_eq (state : HpackCompressState) (field : HttpHeaderField)
    (result : Except Fault Bytes) : (state, result) = writeLiteral false state field result := by
  cases result with
  | error e => rfl
  | ok bytes => rfl

/-- What a field is encoded as, by where it is found. -/
def encodeAs (options : Http2HpackCompressOptions) (state : HpackCompressState)
    (field : HttpHeaderField) (add : Bool) :
    TableFindResult → HpackCompressState × Except Fault Bytes
  | .allFound index => (state, encodeSingleHeaderFieldIndexedHeaderField index)
  | .keyFound index =>
    writeLiteral add state field
      (encodeLiteralVariant1 (literalKind add) index field.value options.huffmanUsage)
  | .notFound =>
    writeLiteral add state field
      (encodeLiteralVariant2 (literalKind add) field options.huffmanUsage)

theorem encodeSingleHeaderFieldExtended_eq (options : Http2HpackCompressOptions)
    (state : HpackCompressState) (field : HttpHeaderField) (useAllTables : Bool) :
    encodeSingleHeaderFieldExtended field state options.huffmanUsage options.tableAddType
        useAllTables =
      encodeAs options state field (shouldAddHeaderToTable field options.tableAddType)
        (findInTables field state useAllTables) := by
  unfold encodeSingleHeaderFieldExtended
  cases findInTables field state useAllTables with
  | notFound =>
    dsimp only [encodeAs]
    rw [encodeSingleHeaderFieldExtendedAsWhole]
    cases shouldAddHeaderToTable field options.tableAddType with
    | true => exact insertField_eq state field _
    | false => exact neverIndexed_eq state field _
  | keyFound index =>
    dsimp only [encodeAs]
    rw [encodeSingleHeaderFieldExtendedWithKeyFromTable]
    cases shouldAddHeaderToTable field options.tableAddType with
    | true => exact insertField_eq state field _
    | false => exact neverIndexed_eq state field _
  | allFound index => rfl

theorem encodeField_eq (options : Http2HpackCompressOptions) (state : HpackCompressState)
    (field : HttpHeaderField) :
    encodeField options field state =
      encodeAs options state field (addsField options field) (lookup options state field) := by
  unfold encodeField addsField lookup
  cases options.type with
  | noTableUsage => exact neverIndexed_eq state field _
  | staticTableUsage => exact encodeSingleHeaderFieldExtended_eq options state field false
  | allTablesUsage => exact encodeSingleHeaderFieldExtended_eq options state field true

theorem lookup_ok (options : Http2HpackCompressOptions) (state : HpackCompressState)
    (field : HttpHeaderField) : LookupOk state field (lookup options state field) := by
  unfold lookup
  cases options.type with
  | noTableUsage => trivial
  | staticTableUsage => exact findInTables_ok state field false
  | allTablesUsage => exact findInTables_ok state field true

/-- **A field is written so that it is read again.** -/
theorem encodeField_written {options : Http2HpackCompressOptions}
    (h : FieldOk options state field last) :
    ∃ state' bytes, encodeField options field state = (state', .ok bytes) ∧
      WrittenField state field last state' bytes := by
  have hlookup := lookup_ok options state field
  rw [encodeField_eq]
  unfold FieldOk at h
  cases hfound : lookup options state field with
  | allFound index =>
    rw [hfound] at h hlookup
    obtain ⟨bytes, hencode, hwritten⟩ := encodeSingleHeaderFieldIndexedHeaderField_written
      hlookup.1 h.2 (hlookup.2 h.1)
    exact ⟨state, bytes, by rw [encodeAs, hencode], hwritten⟩
  | keyFound index =>
    rw [hfound] at h hlookup
    obtain ⟨hne, entryValue, hentry⟩ := hlookup
    obtain ⟨hindex, hvalue, hlast⟩ := h
    obtain ⟨indexBytes, valueBytes, hencode, hindexWritten, hvalueWritten⟩ :=
      encodeLiteralVariant1_written (addsField options field) rfl hindex hvalue
    refine ⟨_, _, ?_, writtenField_variant1 hindexWritten hvalueWritten hne hentry hlast⟩
    rw [encodeAs, hencode]
    rfl
  | notFound =>
    rw [hfound] at h
    obtain ⟨hkey, hvalue, hlast⟩ := h
    obtain ⟨keyBytes, valueBytes, hencode, hkeyWritten, hvalueWritten⟩ :=
      encodeLiteralVariant2_written (literalKind (addsField options field)) rfl hkey hvalue
    refine ⟨_, _, ?_,
      writtenField_variant2 (addsField options field) hkeyWritten hvalueWritten hlast⟩
    rw [encodeAs, hencode]
    rfl

end SimpleServer.Hpack
