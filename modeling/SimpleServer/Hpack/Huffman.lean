import SimpleServer.Lib.Bits
import SimpleServer.Hpack.Tables

/-!
# Huffman coding of header strings (`hpack_huffman.c`)

The decoding tree and the encoding map are the ones `hpack.ts` generates from
`rawCodes`; encoder and decoder are the loops of `hpack_huffman.c` over a bit
position (`BitPos`), with their error exits. Memory allocation succeeds.
-/

namespace SimpleServer.Hpack

open Lib

/-- How a modelled C function ends when it does not return a value: with an error
result of its own, or by doing something the C standard gives no meaning. -/
inductive Fault where
  | error (message : String)
  | undefined
deriving Repr, DecidableEq

/-- The value at the end of a path of the decoding tree. -/
inductive EndValue where
  | byte (value : UInt8)
  | eos
deriving Repr, DecidableEq

abbrev HuffmanNode := CodeTree EndValue

/-- One round of the outer loop of `codesToTree`: hang a code into the tree. The
generator stops (`none`) when the path runs into a filled end node. A code that ends
at an inner node is dropped. -/
def insertCode (value : EndValue) : List Bool → HuffmanNode → Option HuffmanNode
  | [], .empty => some (.leaf value)
  | [], .leaf _ => none
  | [], .node l r => some (.node l r)
  | b :: bs, t =>
    match t with
    | .leaf _ => none
    | .empty =>
      if b then (insertCode value bs .empty).map (.node .empty)
      else (insertCode value bs .empty).map (.node · .empty)
    | .node l r =>
      if b then (insertCode value bs r).map (.node l) else (insertCode value bs l).map (.node · r)

/-- `getValue` of the symbol at a position of `rawCodes`. -/
def endValue (sym : ℕ) : EndValue := if sym = 256 then .eos else .byte (UInt8.ofNat sym)

/-- `codesToTree`, from a root with two empty ends. -/
def codesToTree (codes : List (ℕ × RawHuffmanCode)) : Option HuffmanNode :=
  codes.foldlM (fun t c => insertCode (endValue c.1) c.2.bytes t) (.node .empty .empty)

/-- The raw codes with their symbols. -/
def symCodes : List (ℕ × RawHuffmanCode) := (List.range 257).zip rawCodes

/-- `get_hpack_huffman_tree`. -/
def hpackHuffmanTree : HuffmanNode := (codesToTree symCodes).getD .empty

/-- A `HuffmanEncodeEntry`: how many bits, and the bits with the first one lowest. -/
structure HuffmanEncodeEntry where
  bitSize : ℕ
  value : ℕ

/-- `encodeNodeToC`: the bits of a code, read as a binary number in reverse. -/
def encodeNodeToC (c : RawHuffmanCode) : HuffmanEncodeEntry :=
  ⟨c.bytes.length, c.bytes.foldr (fun b v => b.toNat + 2 * v) 0⟩

/-- `get_hpack_huffman_encode_map`: the entry of each byte value. -/
def hpackHuffmanEncodeMap : List HuffmanEncodeEntry := (rawCodes.take 256).map encodeNodeToC

/-- `map->entries[value]`. -/
def encodeEntry (value : UInt8) : HuffmanEncodeEntry :=
  hpackHuffmanEncodeMap.getD value.toNat ⟨0, 0⟩

/-- A position in a bit stream: a byte and a bit (0 to 7) of it. -/
structure BitPos where
  pos : ℕ
  bitsPos : ℕ
deriving Repr, DecidableEq

def BitPos.inc (p : BitPos) : BitPos :=
  if p.bitsPos + 1 ≥ 8 then ⟨p.pos + 1, 0⟩ else ⟨p.pos, p.bitsPos + 1⟩

/-! ## Decoding -/

/-- `bit_pos_mask`. -/
def bitPosMask : List UInt8 := [0x80, 0x40, 0x20, 0x10, 0x08, 0x04, 0x02, 0x01]

/-- `MIN_HPACK_BITS_PER_CHAR`. -/
def minHpackBitsPerChar : ℕ := 5

/-- How many bytes the decoder reserves for its output. -/
def decodeMemorySize (size : ℕ) : ℕ := (size * 8 + (minHpackBitsPerChar - 1)) / minHpackBitsPerChar

/-- The loop of `decode_bytes_huffman_impl`. `fuel` counts the bits left, so that it
runs out exactly when `current_pos` reaches the end of the buffer. What the code does
with `last_pos` after the loop has no effect (`buffer.size >= last_pos.pos` always
holds), so only the decoded values are kept. -/
def decodeBytesLoop (data : Bytes) (memorySize : ℕ) :
    ℕ → BitPos → HuffmanNode → Bytes → Except Fault Bytes
  | 0, _, _, values => .ok values
  | fuel + 1, currentPos, currentNode, values =>
    match data[currentPos.pos]?, bitPosMask[currentPos.bitsPos]? with
    | some byte, some mask =>
      match currentNode.child (byte &&& mask != 0) with
      | none => .error .undefined
      | some .empty => .error .undefined
      | some (.leaf .eos) => .error (.error "EOS received")
      | some (.leaf (.byte value)) =>
        let values := values ++ [value]
        if values.length ≥ memorySize then .error (.error "result memory overflow")
        else decodeBytesLoop data memorySize fuel currentPos.inc hpackHuffmanTree values
      | some (.node l r) => decodeBytesLoop data memorySize fuel currentPos.inc (.node l r) values
    | _, _ => .error .undefined

/-- `hpack_huffman_decode_bytes`, once the global tables are set up. -/
def hpackHuffmanDecodeBytes (buffer : Bytes) : Except Fault Bytes :=
  if buffer.length = 0 then .error (.error "input is NULL or empty")
  else decodeBytesLoop buffer (decodeMemorySize buffer.length) (8 * buffer.length) ⟨0, 0⟩
    hpackHuffmanTree []

/-! ## Encoding -/

/-- `hpack_huffman_get_encoded_size`. -/
def hpackHuffmanGetEncodedSize (str : Bytes) : ℕ :=
  ((str.map fun c => (encodeEntry c).bitSize).sum + 7) / 8

/-- The inner loop of `hpack_huffman_encode_value_fixed_size_impl`: write the `n` low
bits of `value`, lowest first. The new byte is cleared before the bound is checked. -/
def encodeBitsLoop (maxSize : ℕ) :
    ℕ → ℕ → Bytes → BitPos → Except Fault (Bytes × BitPos)
  | 0, _, data, p => .ok (data, p)
  | n + 1, value, data, p =>
    if p.bitsPos = 0 ∧ data.length ≤ p.pos then .error .undefined
    else
      let data := if p.bitsPos = 0 then data.set p.pos 0 else data
      if p.pos ≥ maxSize then .error (.error "not enough size in the out buffer")
      else
        let data := data.set p.pos (orBit (data.getD p.pos 0) p.bitsPos (value % 2 == 1))
        encodeBitsLoop maxSize n (value / 2) data p.inc

/-- The outer loop of `hpack_huffman_encode_value_fixed_size_impl`, over the string. -/
def encodeCharsLoop (maxSize : ℕ) : Bytes → Bytes → BitPos → Except Fault (Bytes × BitPos)
  | [], data, p => .ok (data, p)
  | c :: cs, data, p =>
    match encodeBitsLoop maxSize (encodeEntry c).bitSize (encodeEntry c).value data p with
    | .error e => .error e
    | .ok (data, p) => encodeCharsLoop maxSize cs data p

/-- `hpack_huffman_encode_value_fixed_size`: the bytes written to `data`, which has room
for `maxSize` bytes. -/
def hpackHuffmanEncodeValueFixedSize (data : Bytes) (maxSize : ℕ) (str : Bytes) :
    Except Fault Bytes :=
  if str.length = 0 then .ok []
  else if maxSize = 0 then .error (.error "max size is 0")
  else
    match encodeCharsLoop maxSize str data ⟨0, 0⟩ with
    | .error e => .error e
    | .ok (data, p) =>
      if p.bitsPos > 0 then
        .ok ((data.set p.pos (padOnes (data.getD p.pos 0) p.bitsPos)).take (p.pos + 1))
      else .ok (data.take p.pos)

/-- `hpack_huffman_encode_value`, once the global tables are set up. -/
def hpackHuffmanEncodeValue (str : Bytes) : Except Fault Bytes :=
  let size := hpackHuffmanGetEncodedSize str
  if size = 0 then .ok []
  else
    match hpackHuffmanEncodeValueFixedSize (List.replicate size 0) size str with
    | .error e => .error e
    | .ok result =>
      if result.length ≠ size then .error (.error "Size that got calculated not exact")
      else .ok result

end SimpleServer.Hpack
