import SimpleServer.Lib.Reading
import SimpleServer.Hpack.Decode

/-!
# Decompression with the widths of the machine (`hpack.c`)

The same functions as in `Hpack/Decode.lean`, now with the integers the code computes with:
the shift is one of a 32 bit `int`, the value of an integer has 64 bits, and `size_t` wraps
at `2 ^ 64`. What the decoder reads from its input is recorded in `reads`, as slices of an
offset and a length, inside the input or not.

The shift of an `int` by its width or more and the memory that `malloc` finds are left open
(`Machine`). Pushing to a vector, copying a string and `realloc` to a smaller size succeed.
-/

namespace SimpleServer.Hpack

open Lib

/-- `SIZE_MAX` and one. -/
def sizeRange : ℕ := 2 ^ 64

/-- What the code leaves to the compiler and the C library. -/
structure Machine where
  /-- `(byte & 0x7F) << amount` for an amount of 32 or more. -/
  oversizedShift : ℕ → ℕ → BitVec 32
  /-- Whether `malloc` finds so many bytes. -/
  malloc : ℕ → Bool
  malloc_zero : malloc 0 = true
  /-- No object is larger than the address space. -/
  malloc_huge : ∀ n, 2 ^ 57 ≤ n → malloc n = false

/-- A machine that shifts by the amount modulo 32 and has 47 bits of address space. -/
def Machine.x86 : Machine where
  oversizedShift value amount := BitVec.ofNat 32 value <<< (amount % 32)
  malloc n := n < 2 ^ 47
  malloc_zero := by decide
  malloc_huge n hn := by
    rw [decide_eq_false_iff_not]
    have : (2 : ℕ) ^ 47 ≤ 2 ^ 57 := Nat.pow_le_pow_right (by decide) (by decide)
    omega

/-- What the functions of a block work on: the position, the slices that were read, the
header list and the decompress state. -/
structure Decoder where
  pos : ℕ
  reads : List (ℕ × ℕ)
  headers : List HttpHeaderField
  state : HpackDecompressState

/-- One more slice has been read. -/
def Decoder.note (d : Decoder) (start length : ℕ) : Decoder :=
  { d with reads := d.reads ++ [(start, length)] }

/-- A failed function does not take back what it has done. -/
abbrev HpackReader := EStateM Fault Decoder

/-- `data[*pos]`. -/
def readByte (data : Bytes) : HpackReader UInt8 := do
  let d ← get
  set (d.note d.pos 1)
  pure (data.getD d.pos 0)

/-- `(*pos) += length`. -/
def advance (length : ℕ) : HpackReader Unit :=
  modify fun d => { d with pos := (d.pos + length) % sizeRange }

/-- `if(*pos >= size)`, with the error of that exit. -/
def failAtEnd (data : Bytes) (e : Fault) : HpackReader Unit := do
  let d ← get
  failIf (d.pos ≥ data.length) e

/-- The bytes of `raw_bytes`, which start at an offset of the data. To read more than there is
has no meaning. -/
def readRawBytes (data : Bytes) (start length : ℕ) : HpackReader Bytes := do
  modify (·.note start length)
  failIf (data.length < start + length) .undefined
  pure ((data.drop start).take length)

/-- Add a field to the header list. -/
def pushHeader (field : HttpHeaderField) : HpackReader Unit :=
  modify fun d => { d with headers := d.headers ++ [field] }

/-- Change the decompress state. -/
def changeState (f : HpackDecompressState → HpackDecompressState) : HpackReader Unit :=
  modify fun d => { d with state := f d.state }

/-- `hpack_get_table_entry_at` on the decompress state. -/
def tableEntry (index : ℕ) : HpackReader (Bytes × Option Bytes) := do
  let d ← get
  match hpackGetTableEntryAt d.state index with
  | none => throw genericError
  | some entry => pure entry

/-- Replace the text of an error by the one of the branch that failed. -/
def withItemMessage (message : String) (x : HpackReader Unit) : HpackReader Unit :=
  x.adaptExcept fun e => match e with
    | .error _ => .error message
    | .undefined => .undefined

namespace Machine

variable (m : Machine) (data : Bytes)

/-- `(byte & 0x7F) << amount`, an `int`, as the summand of a 64 bit number. -/
def shiftedBits (byte : UInt8) (amount : ℕ) : BitVec 64 :=
  (if amount < 32 then BitVec.ofNat 32 (byte.toNat % 0x80) <<< amount
    else m.oversizedShift (byte.toNat % 0x80) amount).signExtend 64

/-- The loop of `decode_hpack_variable_integer`; `fuel` is the number of bytes from the
position to the end of the data. -/
def decodeIntegerLoop : ℕ → ℕ → BitVec 64 → HpackReader (BitVec 64)
  | 0, _, _ => throw (.error "not enough bytes")
  | fuel + 1, amount, result => do
    failAtEnd data (.error "not enough bytes")
    let byte ← readByte data
    advance 1
    failIf (amount / 8 ≥ 7) (.error "final integer would be too big")
    let result := result + m.shiftedBits byte amount
    if byte.toNat < 0x80 then pure result else decodeIntegerLoop fuel (amount + 7) result

def decodeHpackVariableInteger (prefixBits : ℕ) : HpackReader (BitVec 64) := do
  let mask := 2 ^ prefixBits - 1
  let byte ← readByte data
  let firstByte := byte.toNat % 2 ^ prefixBits
  advance 1
  if firstByte < mask then pure (BitVec.ofNat 64 firstByte)
  else do
    let d ← get
    m.decodeIntegerLoop data (data.length - d.pos) 0 (BitVec.ofNat 64 firstByte)

/-- The result memory of `decode_bytes_huffman_impl`, in `size_t`. -/
def huffmanMemorySize (size : ℕ) : ℕ :=
  ((size * 8 % sizeRange + (minHpackBitsPerChar - 1)) % sizeRange) / minHpackBitsPerChar

/-- The end of `parse_literal_string_value`: the memory for the string is allocated first,
then the bytes are read. -/
def literalContent (isHuffman : Bool) (start length : ℕ) : HpackReader Bytes :=
  if isHuffman then do
    failIf (m.malloc ((huffmanMemorySize length + 1) % sizeRange) = false)
      (.error "failed malloc")
    let rawBytes ← readRawBytes data start length
    match hpackHuffmanDecodeBytes rawBytes with
    | .error e => throw e
    | .ok result => pure result
  else do
    failIf (m.malloc ((length + 1) % sizeRange) = false) (.error "OOM")
    readRawBytes data start length

/-- The part of `parse_literal_string_value` after the length. -/
def literalOfLength (isHuffman : Bool) (length : BitVec 64) : HpackReader Bytes :=
  if length = 0 then pure []
  else do
    let d ← get
    failIf ((d.pos + length.toNat) % sizeRange > data.length)
      (.error "not enough bytes for the amount of data of a string literal")
    advance length.toNat
    m.literalContent data isHuffman d.pos length.toNat

def parseLiteralStringValue : HpackReader Bytes := do
  failAtEnd data (.error "not enough bytes at the start of a string literal")
  let byte ← readByte data
  let isHuffman := byte &&& 0x80 != 0
  let length ← m.decodeHpackVariableInteger data 7
  -- also checked for a string of length 0
  failAtEnd data (.error "not enough bytes after the length bytes of a string literal")
  m.literalOfLength data isHuffman length

def parseHpackIndexedHeaderField : HpackReader Unit := do
  let index ← m.decodeHpackVariableInteger data 7
  failIf (index = 0) genericError
  match ← tableEntry index.toNat with
  | (_, none) => throw genericError
  | (key, some value) => pushHeader ⟨key, value⟩

/-- The key of a literal field. -/
def parseLiteralKey (index : BitVec 64) : HpackReader Bytes :=
  if index = 0 then m.parseLiteralStringValue data
  else do
    let entry ← tableEntry index.toNat
    pure entry.1

/-- The part the three literal representations share. -/
def parseHpackLiteralHeaderField (prefixBits : ℕ) : HpackReader HttpHeaderField := do
  let index ← m.decodeHpackVariableInteger data prefixBits
  let headerKey ← m.parseLiteralKey data index
  failAtEnd data genericError
  let headerValue ← m.parseLiteralStringValue data
  pushHeader ⟨headerKey, headerValue⟩
  pure ⟨headerKey, headerValue⟩

def parseHpackLiteralHeaderFieldWithIncrementalIndexing : HpackReader Unit := do
  let field ← m.parseHpackLiteralHeaderField data 6
  changeState (insertEntryIntoDynamicTable · ⟨field.key, field.value⟩)

def parseHpackDynamicTableSizeUpdate : HpackReader Unit := do
  let newSize ← m.decodeHpackVariableInteger data 5
  changeState (setHpackDecompressStateSetting · newSize.toNat)

def parseHpackLiteralHeaderFieldNeverIndexed : HpackReader Unit := do
  let _ ← m.parseHpackLiteralHeaderField data 4

def parseHpackLiteralHeaderFieldWithoutIndexing : HpackReader Unit := do
  let _ ← m.parseHpackLiteralHeaderField data 4

/-- The parse function for an item that starts with `byte`. -/
def parseItem (byte : UInt8) : HpackReader Unit :=
  if byte &&& 0x80 != 0 then
    withItemMessage "error in parsing indexed header field" (m.parseHpackIndexedHeaderField data)
  else if byte &&& 0xC0 == 0x40 then
    withItemMessage "error in parsing literal header field with incremental indexing"
      (m.parseHpackLiteralHeaderFieldWithIncrementalIndexing data)
  else if byte &&& 0xE0 == 0x20 then
    withItemMessage "error in parsing dynamic table size update"
      (m.parseHpackDynamicTableSizeUpdate data)
  else if byte &&& 0xF0 == 0x10 then
    withItemMessage "error in parsing literal header field never indexed"
      (m.parseHpackLiteralHeaderFieldNeverIndexed data)
  else
    withItemMessage "error in parsing literal header field without indexing"
      (m.parseHpackLiteralHeaderFieldWithoutIndexing data)

/-- One round of the loop of `http2_hpack_decompress_data_impl`. -/
def iteration : HpackReader Unit := do
  let byte ← readByte data
  m.parseItem data byte

/-- The loop of `http2_hpack_decompress_data_impl`, with no result when it is not over after
`fuel` rounds. -/
def decompressLoop : ℕ → Decoder → Option (EStateM.Result Fault Decoder Unit)
  | fuel, d =>
    if d.pos ≥ data.length then some (.ok () d)
    else
      match fuel with
      | 0 => none
      | fuel + 1 =>
        match (m.iteration data).run d with
        | .error e d => some (.error e d)
        | .ok () d => decompressLoop fuel d

end Machine

/-- The decoder at the start of a block. -/
def Decoder.start (state : HpackDecompressState) : Decoder := ⟨0, [], [], state⟩

end SimpleServer.Hpack
