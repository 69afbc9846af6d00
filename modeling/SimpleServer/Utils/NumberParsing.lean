import SimpleServer.Utils.Bytes

/-!
# Numbers in texts (`number_parsing.c`)

`parse_u64` and `parse_i64`. The value is kept modulo 2^64.
-/

namespace SimpleServer.Utils

/-- The loop of `parse_u64`. An overflow is only noticed when the value gets smaller. -/
def parseU64Loop : Bytes → ℕ → Option ℕ
  | [], result => some result
  | c :: rest, oldResult =>
    if c < 0x30 ∨ c > 0x39 then none
    else
      let result := (oldResult * 10 + (c.toNat - 0x30)) % 2 ^ 64
      if result < oldResult then none else parseU64Loop rest result

def parseU64 (toParse : Bytes) : Option ℕ :=
  if toParse.length = 0 then none else parseU64Loop toParse 0

/-- `parse_i64`. The digits behind the sign go through the same loop as in `parse_u64`. The negation
of the least value wraps around. -/
def parseI64 (toParse : Bytes) : Option Int64 :=
  match toParse with
  | [] => none
  | first :: rest =>
    let hasSign := first = 0x2D
    let digits := if first = 0x2D ∨ first = 0x2B then rest else toParse
    if digits.length = 0 then none
    else
      match parseU64Loop digits 0 with
      | none => none
      | some resultTemp =>
        if hasSign then
          if resultTemp > 2 ^ 63 then none
          else some (-Int64.ofNat resultTemp)
        else if resultTemp > 2 ^ 63 - 1 then none
        else some (Int64.ofNat resultTemp)

end SimpleServer.Utils
