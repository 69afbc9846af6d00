import SimpleServer.Lib.Buffer
import SimpleServer.Lib.ByteOrder
import SimpleServer.Utils.Bytes

/-!
# SHA-1 (`thirdparty/sha1/sha1.c`)

The rounds of a block, the context that takes data in pieces, and its use in `generic/hash.c`
without OpenSSL. Integers are unsigned and of 32 bits. A read or a write outside of a buffer is
`none`. `BYTE_ORDER` is a parameter.
-/

namespace SimpleServer.Generic

open Lib

/-! ## One block -/

def rol (value bits : UInt32) : UInt32 := value <<< bits ||| value >>> (32 - bits)

/-- The words `block->l`. -/
abbrev Sha1Block := Fin 16 → UInt32

/-- `i & 15`. -/
def blkIndex (i : ℕ) : Fin 16 := ⟨i % 16, by omega⟩

/-- The working variables. -/
inductive Sha1Var where
  | a
  | b
  | c
  | d
  | e
deriving DecidableEq

/-- The working variables and the block, which is overwritten round by round. -/
structure Sha1Work where
  vars : Sha1Var → UInt32
  block : Sha1Block

/-- The words of a block in memory. -/
def loadBlock (order : ByteOrder) (buffer : Bytes) : Sha1Block := fun i =>
  UInt32.ofNat (order.load ((buffer.drop (4 * i.val)).take 4))

/-- `blk0(i)`: what is stored in the block. -/
def blk0 (order : ByteOrder) (block : Sha1Block) (i : ℕ) : UInt32 :=
  match order with
  | .little =>
    rol (block (blkIndex i)) 24 &&& 0xFF00FF00 ||| rol (block (blkIndex i)) 8 &&& 0x00FF00FF
  | .big => block (blkIndex i)

/-- `blk(i)`. -/
def blk (block : Sha1Block) (i : ℕ) : UInt32 :=
  rol (block (blkIndex (i + 13)) ^^^ block (blkIndex (i + 8)) ^^^
    block (blkIndex (i + 2)) ^^^ block (blkIndex i)) 1

/-- The macros of the rounds. -/
inductive Sha1Macro where
  | r0
  | r1
  | r2
  | r3
  | r4
deriving DecidableEq

/-- A line of `SHA1Transform`: the macro with its arguments. -/
structure Sha1Line where
  op : Sha1Macro
  v : Sha1Var
  w : Sha1Var
  x : Sha1Var
  y : Sha1Var
  z : Sha1Var
  i : ℕ
deriving DecidableEq

/-- What a macro makes of `w`, `x` and `y`. -/
def Sha1Macro.mix : Sha1Macro → UInt32 → UInt32 → UInt32 → UInt32
  | r0, w, x, y => w &&& (x ^^^ y) ^^^ y
  | r1, w, x, y => w &&& (x ^^^ y) ^^^ y
  | r2, w, x, y => w ^^^ x ^^^ y
  | r3, w, x, y => (w ||| x) &&& y ||| w &&& x
  | r4, w, x, y => w ^^^ x ^^^ y

def Sha1Macro.constant : Sha1Macro → UInt32
  | r0 => 0x5A827999
  | r1 => 0x5A827999
  | r2 => 0x6ED9EBA1
  | r3 => 0x8F1BBCDC
  | r4 => 0xCA62C1D6

/-- The word that a macro stores in the block and adds. -/
def Sha1Macro.word (order : ByteOrder) : Sha1Macro → Sha1Block → ℕ → UInt32
  | r0 => blk0 order
  | r1 => blk
  | r2 => blk
  | r3 => blk
  | r4 => blk

/-- `z += ...; w = rol(w, 30);` -/
def Sha1Line.run (order : ByteOrder) (line : Sha1Line) (work : Sha1Work) : Sha1Work :=
  let word := line.op.word order work.block line.i
  let sum := line.op.mix (work.vars line.w) (work.vars line.x) (work.vars line.y) + word +
    line.op.constant + rol (work.vars line.v) 5
  let vars := Function.update work.vars line.z (work.vars line.z + sum)
  { vars := Function.update vars line.w (rol (vars line.w) 30)
    block := Function.update work.block (blkIndex line.i) word }

/-! Four times twenty lines. -/

def sha1FirstLines : List Sha1Line :=
  [⟨.r0, .a, .b, .c, .d, .e, 0⟩, ⟨.r0, .e, .a, .b, .c, .d, 1⟩, ⟨.r0, .d, .e, .a, .b, .c, 2⟩,
    ⟨.r0, .c, .d, .e, .a, .b, 3⟩, ⟨.r0, .b, .c, .d, .e, .a, 4⟩, ⟨.r0, .a, .b, .c, .d, .e, 5⟩,
    ⟨.r0, .e, .a, .b, .c, .d, 6⟩, ⟨.r0, .d, .e, .a, .b, .c, 7⟩, ⟨.r0, .c, .d, .e, .a, .b, 8⟩,
    ⟨.r0, .b, .c, .d, .e, .a, 9⟩, ⟨.r0, .a, .b, .c, .d, .e, 10⟩, ⟨.r0, .e, .a, .b, .c, .d, 11⟩,
    ⟨.r0, .d, .e, .a, .b, .c, 12⟩, ⟨.r0, .c, .d, .e, .a, .b, 13⟩, ⟨.r0, .b, .c, .d, .e, .a, 14⟩,
    ⟨.r0, .a, .b, .c, .d, .e, 15⟩, ⟨.r1, .e, .a, .b, .c, .d, 16⟩, ⟨.r1, .d, .e, .a, .b, .c, 17⟩,
    ⟨.r1, .c, .d, .e, .a, .b, 18⟩, ⟨.r1, .b, .c, .d, .e, .a, 19⟩]

def sha1SecondLines : List Sha1Line :=
  [⟨.r2, .a, .b, .c, .d, .e, 20⟩, ⟨.r2, .e, .a, .b, .c, .d, 21⟩, ⟨.r2, .d, .e, .a, .b, .c, 22⟩,
    ⟨.r2, .c, .d, .e, .a, .b, 23⟩, ⟨.r2, .b, .c, .d, .e, .a, 24⟩, ⟨.r2, .a, .b, .c, .d, .e, 25⟩,
    ⟨.r2, .e, .a, .b, .c, .d, 26⟩, ⟨.r2, .d, .e, .a, .b, .c, 27⟩, ⟨.r2, .c, .d, .e, .a, .b, 28⟩,
    ⟨.r2, .b, .c, .d, .e, .a, 29⟩, ⟨.r2, .a, .b, .c, .d, .e, 30⟩, ⟨.r2, .e, .a, .b, .c, .d, 31⟩,
    ⟨.r2, .d, .e, .a, .b, .c, 32⟩, ⟨.r2, .c, .d, .e, .a, .b, 33⟩, ⟨.r2, .b, .c, .d, .e, .a, 34⟩,
    ⟨.r2, .a, .b, .c, .d, .e, 35⟩, ⟨.r2, .e, .a, .b, .c, .d, 36⟩, ⟨.r2, .d, .e, .a, .b, .c, 37⟩,
    ⟨.r2, .c, .d, .e, .a, .b, 38⟩, ⟨.r2, .b, .c, .d, .e, .a, 39⟩]

def sha1ThirdLines : List Sha1Line :=
  [⟨.r3, .a, .b, .c, .d, .e, 40⟩, ⟨.r3, .e, .a, .b, .c, .d, 41⟩, ⟨.r3, .d, .e, .a, .b, .c, 42⟩,
    ⟨.r3, .c, .d, .e, .a, .b, 43⟩, ⟨.r3, .b, .c, .d, .e, .a, 44⟩, ⟨.r3, .a, .b, .c, .d, .e, 45⟩,
    ⟨.r3, .e, .a, .b, .c, .d, 46⟩, ⟨.r3, .d, .e, .a, .b, .c, 47⟩, ⟨.r3, .c, .d, .e, .a, .b, 48⟩,
    ⟨.r3, .b, .c, .d, .e, .a, 49⟩, ⟨.r3, .a, .b, .c, .d, .e, 50⟩, ⟨.r3, .e, .a, .b, .c, .d, 51⟩,
    ⟨.r3, .d, .e, .a, .b, .c, 52⟩, ⟨.r3, .c, .d, .e, .a, .b, 53⟩, ⟨.r3, .b, .c, .d, .e, .a, 54⟩,
    ⟨.r3, .a, .b, .c, .d, .e, 55⟩, ⟨.r3, .e, .a, .b, .c, .d, 56⟩, ⟨.r3, .d, .e, .a, .b, .c, 57⟩,
    ⟨.r3, .c, .d, .e, .a, .b, 58⟩, ⟨.r3, .b, .c, .d, .e, .a, 59⟩]

def sha1FourthLines : List Sha1Line :=
  [⟨.r4, .a, .b, .c, .d, .e, 60⟩, ⟨.r4, .e, .a, .b, .c, .d, 61⟩, ⟨.r4, .d, .e, .a, .b, .c, 62⟩,
    ⟨.r4, .c, .d, .e, .a, .b, 63⟩, ⟨.r4, .b, .c, .d, .e, .a, 64⟩, ⟨.r4, .a, .b, .c, .d, .e, 65⟩,
    ⟨.r4, .e, .a, .b, .c, .d, 66⟩, ⟨.r4, .d, .e, .a, .b, .c, 67⟩, ⟨.r4, .c, .d, .e, .a, .b, 68⟩,
    ⟨.r4, .b, .c, .d, .e, .a, 69⟩, ⟨.r4, .a, .b, .c, .d, .e, 70⟩, ⟨.r4, .e, .a, .b, .c, .d, 71⟩,
    ⟨.r4, .d, .e, .a, .b, .c, 72⟩, ⟨.r4, .c, .d, .e, .a, .b, 73⟩, ⟨.r4, .b, .c, .d, .e, .a, 74⟩,
    ⟨.r4, .a, .b, .c, .d, .e, 75⟩, ⟨.r4, .e, .a, .b, .c, .d, 76⟩, ⟨.r4, .d, .e, .a, .b, .c, 77⟩,
    ⟨.r4, .c, .d, .e, .a, .b, 78⟩, ⟨.r4, .b, .c, .d, .e, .a, 79⟩]

def sha1Lines : List Sha1Line :=
  sha1FirstLines ++ sha1SecondLines ++ sha1ThirdLines ++ sha1FourthLines

/-- The working variables at the start of a block. -/
def stateVars (state : Vector UInt32 5) : Sha1Var → UInt32
  | .a => state[0]
  | .b => state[1]
  | .c => state[2]
  | .d => state[3]
  | .e => state[4]

/-- `state[0] += a;` and its companions. -/
def addVars (state : Vector UInt32 5) (vars : Sha1Var → UInt32) : Vector UInt32 5 :=
  #v[state[0] + vars .a, state[1] + vars .b, state[2] + vars .c, state[3] + vars .d,
    state[4] + vars .e]

def sha1Transform (order : ByteOrder) (state : Vector UInt32 5) (buffer : Bytes) :
    Vector UInt32 5 :=
  let work := sha1Lines.foldl (fun work line => line.run order work)
    { vars := stateVars state, block := loadBlock order buffer }
  addVars state work.vars

/-! ## The context -/

/-- `SHA1_CTX`; the buffer has 64 bytes. -/
structure Sha1Ctx where
  state : Vector UInt32 5
  count0 : UInt32
  count1 : UInt32
  buffer : Bytes

/-- The buffer of a context that is not initialised holds anything. -/
def sha1Init (buffer : Bytes) : Sha1Ctx where
  state := #v[0x67452301, 0xEFCDAB89, 0x98BADCFE, 0x10325476, 0xC3D2E1F0]
  count0 := 0
  count1 := 0
  buffer := buffer

/-- `for(; i + 63 < len; i += 64)`. -/
def sha1Blocks (order : ByteOrder) (data : Bytes) (len : UInt32) :
    ℕ → Vector UInt32 5 → UInt32 → Option (Vector UInt32 5 × UInt32)
  | 0, _, _ => none
  | fuel + 1, state, i =>
    if i + 63 < len then do
      let block ← Buffer.slice data i.toNat 64
      sha1Blocks order data len fuel (sha1Transform order state block) (i + 64)
    else some (state, i)

/-- `context->count` after `len` more bytes: the low and the high half. -/
def sha1Count (context : Sha1Ctx) (len : UInt32) : UInt32 × UInt32 :=
  let j := context.count0
  let count0 := context.count0 + len <<< 3
  let count1 := if count0 < j then context.count1 + 1 else context.count1
  (count0, count1 + len >>> 29)

/-- `SHA1Update` up to the last `memcpy`: the full blocks, and where it goes on in the data and in
the buffer. -/
def sha1Fill (order : ByteOrder) (context : Sha1Ctx) (data : Bytes) (len j : UInt32) :
    Option (Vector UInt32 5 × Bytes × UInt32 × UInt32) :=
  if j + len > 63 then do
    let i := 64 - j
    let piece ← Buffer.slice data 0 i.toNat
    let buffer ← Buffer.memcpy context.buffer j.toNat piece
    let (state, i) ← sha1Blocks order data len (len.toNat + 1)
      (sha1Transform order context.state buffer) i
    return (state, buffer, i, 0)
  else some (context.state, context.buffer, 0, j)

def sha1Update (order : ByteOrder) (context : Sha1Ctx) (data : Bytes) (len : UInt32) :
    Option Sha1Ctx := do
  let count := sha1Count context len
  let (state, buffer, i, j) ← sha1Fill order context data len (context.count0 >>> 3 &&& 63)
  let rest ← Buffer.slice data i.toNat (len - i).toNat
  let buffer ← Buffer.memcpy buffer j.toNat rest
  return { state := state, count0 := count.1, count1 := count.2, buffer := buffer }

/-- The byte `(word >> ((3 - (i & 3)) * 8)) & 255`. -/
def sha1Byte (word : UInt32) (i : ℕ) : UInt8 :=
  (word >>> UInt32.ofNat ((3 - i % 4) * 8) &&& 255).toUInt8

/-- `while((context->count[0] & 504) != 448)`. -/
def sha1Zeros (order : ByteOrder) : ℕ → Sha1Ctx → Option Sha1Ctx
  | 0, _ => none
  | fuel + 1, context =>
    if context.count0 &&& 504 ≠ 448 then do
      let context ← sha1Update order context [0] 1
      sha1Zeros order fuel context
    else some context

/-- `SHA1Final`: the digest. -/
def sha1Final (order : ByteOrder) (context : Sha1Ctx) : Option Bytes := do
  let finalcount := (List.range 8).map fun i =>
    sha1Byte (if i ≥ 4 then context.count0 else context.count1) i
  let context ← sha1Update order context [0x80] 1
  let context ← sha1Zeros order 65 context
  let context ← sha1Update order context finalcount 8
  return List.ofFn fun i : Fin 20 =>
    sha1Byte (context.state.get ⟨i.val / 4, by omega⟩) i.val

/-- `SHA1`: byte after byte. -/
def sha1 (order : ByteOrder) (uninit str : Bytes) (len : UInt32) : Option Bytes := do
  let context ← (List.range len.toNat).foldlM
    (fun context ii => sha1Update order context (str.drop ii) 1) (sha1Init uninit)
  sha1Final order context

/-- `get_sha1_from_string`, for the bytes of a C string. -/
def getSha1FromString (order : ByteOrder) (uninit string : Bytes) : Option Bytes := do
  let context ← sha1Update order (sha1Init uninit) string (UInt32.ofNat string.length)
  sha1Final order context

end SimpleServer.Generic
