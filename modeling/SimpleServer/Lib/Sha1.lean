import SimpleServer.Lib.BigEndian
import SimpleServer.Lib.BlockHash

/-!
# SHA-1

The hash function over words of 32 bits: eighty rounds for a block of sixty-four bytes, with a
schedule of eighty words.
-/

namespace Lib.Sha1

/-- The bits of a word turned to the left. -/
def rotateLeft (word : UInt32) (bits : UInt32) : UInt32 :=
  word <<< bits ||| word >>> (32 - bits)

/-- Five words: the working variables of a block, or a chain value. -/
structure Words where
  a : UInt32
  b : UInt32
  c : UInt32
  d : UInt32
  e : UInt32
deriving DecidableEq

def choose (x y z : UInt32) : UInt32 := x &&& y ^^^ ~~~x &&& z

def parity (x y z : UInt32) : UInt32 := x ^^^ y ^^^ z

def majority (x y z : UInt32) : UInt32 := x &&& y ^^^ x &&& z ^^^ y &&& z

/-- The function of round `t`. -/
def roundFunction (t : ℕ) : UInt32 → UInt32 → UInt32 → UInt32 :=
  if t < 20 then choose else if t < 40 then parity else if t < 60 then majority else parity

/-- The constant of round `t`. -/
def roundConstant (t : ℕ) : UInt32 :=
  if t < 20 then 0x5A827999
  else if t < 40 then 0x6ED9EBA1
  else if t < 60 then 0x8F1BBCDC
  else 0xCA62C1D6

/-- Word `t` of a block, its highest byte first. -/
def blockWord (block : List UInt8) (t : ℕ) : UInt32 :=
  UInt32.ofNat (ofBE ((block.drop (4 * t)).take 4))

/-- The message schedule. -/
def schedule (block : List UInt8) (t : ℕ) : UInt32 :=
  if t < 16 then blockWord block t
  else
    rotateLeft (schedule block (t - 3) ^^^ schedule block (t - 8) ^^^ schedule block (t - 14) ^^^
      schedule block (t - 16)) 1
termination_by t

/-- Round `t`, with its word of the schedule. -/
def round (t : ℕ) (word : UInt32) (x : Words) : Words where
  a := rotateLeft x.a 5 + roundFunction t x.b x.c x.d + x.e + roundConstant t + word
  b := x.a
  c := rotateLeft x.b 30
  d := x.c
  e := x.d

/-- The first `t` rounds. -/
def rounds (block : List UInt8) (x : Words) : ℕ → Words
  | 0 => x
  | t + 1 => round t (schedule block t) (rounds block x t)

def Words.add (x y : Words) : Words where
  a := x.a + y.a
  b := x.b + y.b
  c := x.c + y.c
  d := x.d + y.d
  e := x.e + y.e

/-- Blocks of sixty-four bytes, each with eighty rounds. -/
def blocks : BlockHash UInt8 Words where
  blockLength := 64
  blockLength_pos := by decide
  compress chain block := chain.add (rounds block chain 80)

def initial : Words := ⟨0x67452301, 0xEFCDAB89, 0x98BADCFE, 0x10325476, 0xC3D2E1F0⟩

/-- How many zero bytes a message of some length is filled up with. -/
def zeros (length : ℕ) : ℕ := (119 - length % 64) % 64

/-- A message with a one bit, zeros, and its length in bits as a number of 64 bits. -/
def pad (message : List UInt8) : List UInt8 :=
  message ++ 0x80 :: List.replicate (zeros message.length) 0 ++ toBE 8 (8 * message.length)

/-- The bytes of five words. -/
def Words.bytes (x : Words) : List UInt8 :=
  [x.a, x.b, x.c, x.d, x.e].flatMap fun word => toBE 4 word.toNat

/-- The hash of a message. -/
def hash (message : List UInt8) : List UInt8 :=
  (blocks.compressAll initial (pad message)).1.bytes

end Lib.Sha1
