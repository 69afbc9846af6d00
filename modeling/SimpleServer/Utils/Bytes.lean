import Mathlib.Tactic

/-!
# Byte strings

The contents of a `tstr`, a `SizedBuffer` or a C string.
-/

namespace SimpleServer

/-- A byte string: the contents of a `tstr` or of a `SizedBuffer`. -/
abbrev Bytes := List UInt8

/-- The bytes of an ASCII literal of the source. -/
def ascii (s : String) : Bytes := s.toList.map fun c => UInt8.ofNat c.toNat

def lowerByte (c : UInt8) : UInt8 := if 0x41 ≤ c ∧ c ≤ 0x5A then c + 0x20 else c

/-- `tstr_eq_ignore_case`. -/
def eqIgnoreCase (a b : Bytes) : Bool := a.map lowerByte == b.map lowerByte

end SimpleServer
