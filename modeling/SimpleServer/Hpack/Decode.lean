import SimpleServer.Hpack.DynamicTable

/-!
# Decompression (`hpack.c`)

`http2HpackDecompressData` reads a header block item by item. Every parse function
works on the position in the block, the header list read so far and the
decompress state (`DecodeState`); an item that fails leaves the state as it was
before that item, the items before it have changed it. This is a build without assertions.

* `http2HpackDecompressData_max`: only a dynamic table size update changes the limit of
  the table.
-/

namespace SimpleServer.Hpack

structure HttpHeaderField where
  key : Bytes
  value : Bytes
deriving Repr, DecidableEq

/-- The loop of `decode_hpack_variable_integer`; `fuel` is the number of bytes from `pos`
to the end of the data. The shift is one of `int`, which has no meaning once the result
does not fit or the amount reaches 32. -/
def decodeIntegerLoop (data : Bytes) : ℕ → ℕ → ℕ → ℕ → Except Fault (ℕ × ℕ)
  | 0, _, _, _ => .error (.error "not enough bytes")
  | fuel + 1, pos, amount, result =>
    match data[pos]? with
    | none => .error (.error "not enough bytes")
    | some byte =>
      if amount / 8 ≥ 7 then .error (.error "final integer would be too big")
      else if amount ≥ 32 ∨ (byte.toNat % 0x80) <<< amount ≥ 2 ^ 31 then .error .undefined
      else
        let result := result + (byte.toNat % 0x80) <<< amount
        if byte.toNat < 0x80 then .ok (result, pos + 1)
        else decodeIntegerLoop data fuel (pos + 1) (amount + 7) result

/-- `decode_hpack_variable_integer`: the value and the position after it. -/
def decodeHpackVariableInteger (pos : ℕ) (data : Bytes) (prefixBits : ℕ) : Except Fault (ℕ × ℕ) :=
  let mask := 2 ^ prefixBits - 1
  match data[pos]? with
  | none => .error .undefined
  | some byte =>
    let firstByte := byte.toNat % 2 ^ prefixBits
    if firstByte < mask then .ok (firstByte, pos + 1)
    else decodeIntegerLoop data (data.length - (pos + 1)) (pos + 1) 0 firstByte

/-- `hpack_get_table_entry_at`. Only entries of the static table may lack a value. -/
def hpackGetTableEntryAt (state : HpackDynamicTableState) (value : ℕ) :
    Option (Bytes × Option Bytes) :=
  if value = 0 then none
  else if value ≤ hpackStaticHeaderTableSize then hpackStaticHeaderTableEntries[value - 1]?
  else
    let dynamicIndex := value - hpackStaticHeaderTableSize - 1
    if hpackDynamicTableSize state.dynamicTable ≤ dynamicIndex then none
    else (hpackDynamicTableAt state.dynamicTable dynamicIndex).map fun e => (e.key, some e.value)

/-- `parse_literal_string_value`: the string and the position after it. -/
def parseLiteralStringValue (pos : ℕ) (data : Bytes) : Except Fault (Bytes × ℕ) :=
  match data[pos]? with
  | none => .error (.error "not enough bytes at the start of a string literal")
  | some byte =>
    let isHuffman := byte &&& 0x80 != 0
    match decodeHpackVariableInteger pos data 7 with
    | .error e => .error e
    | .ok (length, pos) =>
      -- also checked for a string of length 0
      if pos ≥ data.length then
        .error (.error "not enough bytes after the length bytes of a string literal")
      else if length = 0 then .ok ([], pos)
      else if pos + length > data.length then
        .error (.error "not enough bytes for the amount of data of a string literal")
      else
        let rawBytes := (data.drop pos).take length
        if isHuffman then
          match hpackHuffmanDecodeBytes rawBytes with
          | .error e => .error e
          | .ok result => .ok (result, pos + length)
        else .ok (rawBytes, pos + length)

/-- What the parse functions of a block work on. -/
structure DecodeState where
  pos : ℕ
  headers : List HttpHeaderField
  state : HpackDecompressState

/-- `GENERIC_RES_ERR_UNIQUE`: an error whose text nobody reads. -/
def genericError : Fault := .error "generic error"

def parseHpackIndexedHeaderField (data : Bytes) (d : DecodeState) : Except Fault DecodeState :=
  match decodeHpackVariableInteger d.pos data 7 with
  | .error e => .error e
  | .ok (index, pos) =>
    if index = 0 then .error genericError
    else
      match hpackGetTableEntryAt d.state index with
      | none => .error genericError
      -- strict decoding: an entry without a value can only lend its key
      | some (_, none) => .error genericError
      | some (key, some value) => .ok { d with pos := pos, headers := d.headers ++ [⟨key, value⟩] }

/-- The key of a literal field: a literal of its own when the index is 0, else the key of
a table entry. -/
def parseLiteralKey (data : Bytes) (state : HpackDecompressState) (index pos : ℕ) :
    Except Fault (Bytes × ℕ) :=
  if index = 0 then parseLiteralStringValue pos data
  else
    match hpackGetTableEntryAt state index with
    | none => .error genericError
    | some (key, _) => .ok (key, pos)

/-- The part the three literal representations share, which differ in the prefix of the
index and in what happens to the table. -/
def parseHpackLiteralHeaderField (prefixBits : ℕ) (data : Bytes) (d : DecodeState) :
    Except Fault (HttpHeaderField × DecodeState) :=
  match decodeHpackVariableInteger d.pos data prefixBits with
  | .error e => .error e
  | .ok (index, pos) =>
    match parseLiteralKey data d.state index pos with
    | .error e => .error e
    | .ok (headerKey, pos) =>
      if pos ≥ data.length then .error genericError
      else
        match parseLiteralStringValue pos data with
        | .error e => .error e
        | .ok (headerValue, pos) =>
          .ok (⟨headerKey, headerValue⟩,
            { d with pos := pos, headers := d.headers ++ [⟨headerKey, headerValue⟩] })

def parseHpackLiteralHeaderFieldWithIncrementalIndexing (data : Bytes) (d : DecodeState) :
    Except Fault DecodeState :=
  match parseHpackLiteralHeaderField 6 data d with
  | .error e => .error e
  | .ok (field, d) =>
    .ok { d with state := insertEntryIntoDynamicTable d.state ⟨field.key, field.value⟩ }

def parseHpackDynamicTableSizeUpdate (data : Bytes) (d : DecodeState) : Except Fault DecodeState :=
  match decodeHpackVariableInteger d.pos data 5 with
  | .error e => .error e
  | .ok (newSize, pos) =>
    .ok { d with pos := pos, state := setHpackDecompressStateSetting d.state newSize }

def parseHpackLiteralHeaderFieldNeverIndexed (data : Bytes) (d : DecodeState) :
    Except Fault DecodeState := (parseHpackLiteralHeaderField 4 data d).map Prod.snd

def parseHpackLiteralHeaderFieldWithoutIndexing (data : Bytes) (d : DecodeState) :
    Except Fault DecodeState := (parseHpackLiteralHeaderField 4 data d).map Prod.snd

/-- Replace the text of an error by the one of the branch that failed. -/
def withMessage (message : String) : Except Fault DecodeState → Except Fault DecodeState
  | .error (.error _) => .error (.error message)
  | r => r

/-- One round of the loop of `http2_hpack_decompress_data_impl`, for an item that starts
with `byte`. -/
def parseItem (data : Bytes) (byte : UInt8) (d : DecodeState) : Except Fault DecodeState :=
  if byte &&& 0x80 != 0 then
    withMessage "error in parsing indexed header field" (parseHpackIndexedHeaderField data d)
  else if byte &&& 0xC0 == 0x40 then
    withMessage "error in parsing literal header field with incremental indexing"
      (parseHpackLiteralHeaderFieldWithIncrementalIndexing data d)
  else if byte &&& 0xE0 == 0x20 then
    withMessage "error in parsing dynamic table size update"
      (parseHpackDynamicTableSizeUpdate data d)
  else if byte &&& 0xF0 == 0x10 then
    withMessage "error in parsing literal header field never indexed"
      (parseHpackLiteralHeaderFieldNeverIndexed data d)
  else
    withMessage "error in parsing literal header field without indexing"
      (parseHpackLiteralHeaderFieldWithoutIndexing data d)

/-- The loop of `http2_hpack_decompress_data_impl`. Every item takes at least one byte, so
the size of the data is fuel enough. -/
def decompressLoop (data : Bytes) :
    ℕ → DecodeState → HpackDecompressState × Except Fault (List HttpHeaderField)
  | fuel, d =>
    match data[d.pos]? with
    | none => (d.state, .ok d.headers)
    | some byte =>
      match fuel with
      | 0 => (d.state, .error .undefined)
      | fuel + 1 =>
        match parseItem data byte d with
        | .error e => (d.state, .error e)
        | .ok d => decompressLoop data fuel d

/-- `http2_hpack_decompress_data`, for a state that is there. -/
def http2HpackDecompressData (state : HpackDecompressState) (input : Bytes) :
    HpackDecompressState × Except Fault (List HttpHeaderField) :=
  decompressLoop input input.length ⟨0, [], state⟩

/-! ## The limit of the table during a block -/

/-- The item is a dynamic table size update. -/
def isSizeUpdate (byte : UInt8) : Bool := byte &&& 0xE0 == 0x20

/-- The loop meets a dynamic table size update. -/
def loopHasSizeUpdate (data : Bytes) : ℕ → DecodeState → Bool
  | fuel, d =>
    match data[d.pos]? with
    | none => false
    | some byte =>
      match fuel with
      | 0 => false
      | fuel + 1 =>
        match parseItem data byte d with
        | .error _ => false
        | .ok d => isSizeUpdate byte || loopHasSizeUpdate data fuel d

/-- The block holds a dynamic table size update that is carried out. -/
def blockHasSizeUpdate (state : HpackDecompressState) (input : Bytes) : Bool :=
  loopHasSizeUpdate input input.length ⟨0, [], state⟩

theorem withMessage_eq_ok {message : String} {r : Except Fault DecodeState} {d : DecodeState}
    (h : withMessage message r = .ok d) : r = .ok d := by
  unfold withMessage at h
  split at h
  · cases h
  · exact h

theorem parseHpackLiteralHeaderField_state {prefixBits : ℕ} {data : Bytes} {d d' : DecodeState}
    {field : HttpHeaderField}
    (h : parseHpackLiteralHeaderField prefixBits data d = .ok (field, d')) :
    d'.state = d.state := by
  unfold parseHpackLiteralHeaderField at h
  split at h
  · cases h
  split at h
  · cases h
  split at h
  · cases h
  split at h
  · cases h
  · cases h
    rfl

/-- An item that is no size update keeps the limit. -/
theorem parseItem_max {data : Bytes} {byte : UInt8} {d d' : DecodeState}
    (h : parseItem data byte d = .ok d') (hb : isSizeUpdate byte = false) :
    d'.state.maxDynamicTableByteSize = d.state.maxDynamicTableByteSize := by
  -- literals that are not indexed leave the whole state as it is
  have hliteral : ∀ {r : Except Fault (HttpHeaderField × DecodeState)},
      r = parseHpackLiteralHeaderField 4 data d → r.map Prod.snd = .ok d' →
        d'.state.maxDynamicTableByteSize = d.state.maxDynamicTableByteSize := by
    rintro (e | ⟨field, d''⟩) hr hm
    · cases hm
    · cases hm
      rw [parseHpackLiteralHeaderField_state hr.symm]
  unfold parseItem at h
  split at h
  · have h := withMessage_eq_ok h
    unfold parseHpackIndexedHeaderField at h
    split at h
    · cases h
    split at h
    · cases h
    split at h
    · cases h
    · cases h
    · cases h
      rfl
  split at h
  · have h := withMessage_eq_ok h
    unfold parseHpackLiteralHeaderFieldWithIncrementalIndexing at h
    split at h
    · cases h
    · rename_i hl
      cases h
      rw [insertEntryIntoDynamicTable_max, parseHpackLiteralHeaderField_state hl]
  split at h
  · rename_i hsz
    rw [isSizeUpdate, hsz] at hb
    cases hb
  split at h
  · exact hliteral rfl (withMessage_eq_ok h)
  · exact hliteral rfl (withMessage_eq_ok h)

theorem decompressLoop_max {data : Bytes} :
    ∀ (fuel : ℕ) (d : DecodeState), loopHasSizeUpdate data fuel d = false →
      (decompressLoop data fuel d).1.maxDynamicTableByteSize =
        d.state.maxDynamicTableByteSize := by
  intro fuel
  induction fuel with
  | zero =>
    intro d _
    unfold decompressLoop
    split <;> rfl
  | succ fuel ih =>
    intro d h
    unfold decompressLoop
    unfold loopHasSizeUpdate at h
    split
    · rfl
    rename_i byte hbyte
    rw [hbyte] at h
    dsimp only at h ⊢
    split
    · rfl
    rename_i d' hd'
    rw [hd'] at h
    simp only [Bool.or_eq_false_iff] at h
    rw [ih d' h.2, parseItem_max hd' h.1]

/-- **A block without a size update keeps the limit of the table.** -/
theorem http2HpackDecompressData_max {state : HpackDecompressState} {input : Bytes}
    (h : blockHasSizeUpdate state input = false) :
    (http2HpackDecompressData state input).1.maxDynamicTableByteSize =
      state.maxDynamicTableByteSize :=
  decompressLoop_max input.length ⟨0, [], state⟩ h

end SimpleServer.Hpack
