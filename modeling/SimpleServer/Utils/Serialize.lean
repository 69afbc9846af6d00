import SimpleServer.Lib.BigEndian
import SimpleServer.Utils.Bytes

/-!
# Numbers in messages (`generic/serialize.c`) and buffers in memory (`utils/sized_buffer.c`)

* `deserializeU16BeToHost_serialize` and its two companions: what was written is read.
-/

namespace SimpleServer.Utils

open Lib

/-! ## Serialisation -/

def serializeU16HostToBe (value : ℕ) : Bytes := toBE 2 value

def serializeU32HostToBe (value : ℕ) : Bytes := toBE 4 value

def serializeU64HostToBe (value : ℕ) : Bytes := toBE 8 value

/-- Reads the first two bytes at a pointer. -/
def deserializeU16BeToHost (bytes : Bytes) : ℕ := ofBE (bytes.take 2)

def deserializeU32BeToHost (bytes : Bytes) : ℕ := ofBE (bytes.take 4)

def deserializeU64BeToHost (bytes : Bytes) : ℕ := ofBE (bytes.take 8)

theorem ofBE_take_append {n v : ℕ} (h : v < 256 ^ n) (rest : Bytes) :
    ofBE ((toBE n v ++ rest).take n) = v := by
  rw [List.take_append_of_le_length (toBE_length n v).ge,
    List.take_of_length_le (toBE_length n v).le, ofBE_toBE_of_lt h]

theorem deserializeU16BeToHost_serialize {v : ℕ} (h : v < 2 ^ 16) (rest : Bytes) :
    deserializeU16BeToHost (serializeU16HostToBe v ++ rest) = v := ofBE_take_append h rest

theorem deserializeU32BeToHost_serialize {v : ℕ} (h : v < 2 ^ 32) (rest : Bytes) :
    deserializeU32BeToHost (serializeU32HostToBe v ++ rest) = v := ofBE_take_append h rest

theorem deserializeU64BeToHost_serialize {v : ℕ} (h : v < 2 ^ 64) (rest : Bytes) :
    deserializeU64BeToHost (serializeU64HostToBe v ++ rest) = v := ofBE_take_append h rest

/-! ## Buffers -/

/-- `memcpy` into a buffer. -/
def writeAt (buffer : Bytes) (offset : ℕ) (bytes : Bytes) : Bytes :=
  buffer.take offset ++ bytes ++ buffer.drop (offset + bytes.length)

/-- No object in memory has more bytes (`PTRDIFF_MAX`), and `malloc` never returns one. -/
def ptrdiffLimit : ℕ := 2 ^ 63

/-- A `SizedBuffer`: `NULL` with the size 0, or as many bytes as the size says. -/
structure SizedBuffer where
  data : Option Bytes
  fits : (data.getD []).length < ptrdiffLimit

def SizedBuffer.bytes (buffer : SizedBuffer) : Bytes := buffer.data.getD []

def SizedBuffer.size (buffer : SizedBuffer) : ℕ := buffer.bytes.length

theorem SizedBuffer.size_lt (buffer : SizedBuffer) : buffer.size < ptrdiffLimit := buffer.fits

def getEmptySizedBuffer : SizedBuffer := ⟨none, Nat.two_pow_pos 63⟩

/-- A copy, or `NULL` where the allocation fails. -/
def sizedBufferAllocateFromReadonlyBuffer (bytes : Bytes) : SizedBuffer :=
  if h : bytes.length < ptrdiffLimit then ⟨some bytes, h⟩ else getEmptySizedBuffer

theorem allocateFromReadonlyBuffer_bytes {bytes : Bytes} (h : bytes.length < ptrdiffLimit) :
    (sizedBufferAllocateFromReadonlyBuffer bytes).bytes = bytes := by
  rw [sizedBufferAllocateFromReadonlyBuffer, dif_pos h]
  rfl

end SimpleServer.Utils
