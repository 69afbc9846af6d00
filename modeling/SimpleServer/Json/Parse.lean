import SimpleServer.Json.Value

/-!
# The JSON parser (`json.c`)

The functions take the state and give it back behind what they read. The bytes they skip or
look at are there, except for those that `utf8proc_iterate` says it has used. The assertions of
the source are kept: this is a build with them, as the tests of the repository use.
`json_parse_impl_parse_value` calls itself through objects and arrays, which take it as a
parameter; `fuel` bounds the depth, and the rounds of a loop.

* `jsonValueParseFromStr`: a whole text.
-/

namespace SimpleServer.Json

structure JsonParseState where
  view : Bytes
  loc : SourceLocation

/-- Why a function does not give a result. -/
inductive Stop where
  | error (error : JsonError)
  | fault (fault : Fault)

abbrev Parse (α : Type) := Except Stop (α × JsonParseState)

/-- Go on behind what a function read. -/
def Parse.andThen {α β : Type} (result : Parse α) (next : α → JsonParseState → Parse β) : Parse β :=
  match result with
  | .ok (value, st) => next value st
  | .error stop => .error stop

section AndThen

variable {α β : Type} {result : Parse α} {next : α → JsonParseState → Parse β}

theorem Parse.andThen_eq_ok {out : β × JsonParseState} :
    result.andThen next = .ok out ↔
      ∃ value st, result = .ok (value, st) ∧ next value st = .ok out := by
  rcases result with stop | ⟨value, st⟩
  · simp [andThen]
  · simp [andThen]

theorem Parse.andThen_eq_fault {fault : Fault} :
    result.andThen next = .error (.fault fault) ↔ result = .error (.fault fault) ∨
      ∃ value st, result = .ok (value, st) ∧ next value st = .error (.fault fault) := by
  rcases result with stop | ⟨value, st⟩
  · simp [andThen]
  · simp [andThen]

/-- A function has read `value` and left `rest`. -/
def Reads (result : Parse α) (value : α) (rest : Bytes) : Prop :=
  ∃ loc, result = .ok (value, ⟨rest, loc⟩)

/-- A function has ended in a fault. -/
def Faults (result : Parse α) : Prop := ∃ fault, result = .error (.fault fault)

theorem Reads.andThen {value : α} {rest : Bytes} (h : Reads result value rest)
    (next : α → JsonParseState → Parse β) :
    ∃ loc, result.andThen next = next value ⟨rest, loc⟩ := by
  obtain ⟨loc, rfl⟩ := h
  exact ⟨loc, rfl⟩

theorem Faults.andThen (h : Faults result) : Faults (result.andThen next) := by
  obtain ⟨fault, rfl⟩ := h
  exact ⟨fault, rfl⟩

end AndThen

/-! ## The state -/

/-- `source_position_location_process_new_line`. -/
def SourceLocation.processNewLine (loc : SourceLocation) : SourceLocation :=
  { loc with pos := ⟨loc.pos.line + 1, 0⟩ }

/-- `source_position_location_advance_col_by`. -/
def SourceLocation.advanceColBy (loc : SourceLocation) (amount : ℕ) : SourceLocation :=
  { loc with pos := ⟨loc.pos.line, loc.pos.col + amount⟩ }

namespace JsonParseState

def isEof (st : JsonParseState) : Bool := st.view.isEmpty

/-- `json_parse_state_skip_by`, advancing the location. -/
def skipBy (st : JsonParseState) (amount : ℕ) : JsonParseState :=
  ⟨st.view.drop amount, st.loc.advanceColBy amount⟩

/-- `make_json_error_at`, at the location of the state. -/
def errorAt {α : Type} (st : JsonParseState) (message : String) : Except Stop α :=
  .error (.error ⟨message, st.loc⟩)

@[simp] theorem errorAt_ne_ok {α : Type} (st : JsonParseState) (message : String)
    (out : α × JsonParseState) : st.errorAt message ≠ .ok out := by
  simp [errorAt]

@[simp] theorem errorAt_ne_fault {α : Type} (st : JsonParseState) (message : String)
    (fault : Fault) : (st.errorAt message : Parse α) ≠ .error (.fault fault) := by
  simp [errorAt]

end JsonParseState

/-- `json_parse_impl_is_ws`. -/
def isWs (value : UInt8) : Bool :=
  value == 0x20 || value == 0x09 || value == 0x0A || value == 0x0D

/-- The location behind the whitespace at the beginning of the bytes. -/
def wsLocation : Bytes → SourceLocation → SourceLocation
  | [], loc => loc
  | value :: rest, loc =>
    if isWs value then
      wsLocation rest (if value = 0x0A then loc.processNewLine else loc.advanceColBy 1)
    else loc

/-- `json_parse_impl_skip_ws`. -/
def skipWs (st : JsonParseState) : JsonParseState :=
  ⟨st.view.dropWhile isWs, wsLocation st.view st.loc⟩

/-! ## Booleans and null -/

/-- `json_parse_impl_parse_boolean`. -/
def parseBoolean (st : JsonParseState) : Parse JsonValue :=
  if (ascii "false").isPrefixOf st.view then .ok (.boolean false, st.skipBy 5)
  else if (ascii "true").isPrefixOf st.view then .ok (.boolean true, st.skipBy 4)
  else st.errorAt "not a boolean"

/-- `json_parse_impl_parse_null`. -/
def parseNull (st : JsonParseState) : Parse JsonValue :=
  if (ascii "null").isPrefixOf st.view then .ok (.null, st.skipBy 4)
  else st.errorAt "not null"

/-! ## Numbers -/

/-- `'0' <= value && value <= '9'`. -/
def isDigit (value : UInt8) : Bool := 0x30 ≤ value && value ≤ 0x39

/-- The loop of `json_parse_impl_parse_number_int_part`. -/
def intPartLoop : Bytes → SourceLocation → UInt64 → Parse UInt64
  | [], loc, value => .ok (value, ⟨[], loc⟩)
  | next :: rest, loc, value =>
    if ¬ isDigit next then .ok (value, ⟨next :: rest, loc⟩)
    else
      let previous := value
      let value := value * 10 + (next - 0x30).toUInt64
      let loc := loc.advanceColBy 1
      if previous > value then
        -- overflow detected
        JsonParseState.errorAt ⟨rest, loc⟩
          "invalid number int part: value overflowed a 64 bit number!"
      else intPartLoop rest loc value

/-- `json_parse_impl_parse_number_int_part`, with the value before it becomes a `double`. -/
def parseNumberIntPart (st : JsonParseState) : Parse UInt64 :=
  match st.view with
  | [] => st.errorAt "empty number int part"
  | first :: rest =>
    if first = 0x30 then .ok (0, st.skipBy 1)
    else if first > 0x39 ∨ first < 0x31 then
      st.errorAt "invalid number int part: incorrect start"
    else intPartLoop rest (st.loc.advanceColBy 1) (first - 0x30).toUInt64

/-- The loop of `json_parse_impl_parse_number_frac_part`. -/
def fracPartLoop : Bytes → SourceLocation → ℚ → ℚ → Parse ℚ
  | [], loc, _, value => .ok (value, ⟨[], loc⟩)
  | next :: rest, loc, divider, value =>
    if ¬ isDigit next then .ok (value, ⟨next :: rest, loc⟩)
    else
      let divider := divider * 10
      fracPartLoop rest (loc.advanceColBy 1) divider
        (value + ((next - 0x30).toNat : ℚ) / divider)

/-- `json_parse_impl_parse_number_frac_part`. -/
def parseNumberFracPart (st : JsonParseState) : Parse ℚ :=
  match st.view with
  | [] => st.errorAt "empty number frac part: expected '.' but got eof"
  | next :: rest =>
    if next ≠ 0x2E then st.errorAt "wrong number frac part: missing starting '.'"
    else
      let st := st.skipBy 1
      match rest with
      | [] => st.errorAt "empty number frac part: <EOF> after '.'"
      | first :: rest =>
        if ¬ isDigit first then st.errorAt "invalid number frac part: incorrect start"
        else fracPartLoop rest (st.loc.advanceColBy 1) 10 (((first - 0x30).toNat : ℚ) / 10)

/-- The loop of `json_parse_impl_parse_number_exp_part`. A sum beyond `int64_t` is a signed
overflow, before the test of the source sees it. -/
def expPartLoop : Bytes → SourceLocation → ℤ → Parse ℤ
  | [], loc, value => .ok (value, ⟨[], loc⟩)
  | next :: rest, loc, value =>
    if ¬ isDigit next then .ok (value, ⟨next :: rest, loc⟩)
    else
      let previous := value
      let value := value * 10 + (next - 0x30).toNat
      let loc := loc.advanceColBy 1
      if value ≥ 2 ^ 63 then .error (.fault .undefined)
      else if previous > value then
        JsonParseState.errorAt ⟨rest, loc⟩
          "invalid number exp part: value overflowed a 64 bit number!"
      else expPartLoop rest loc value

/-- The sign of an exponent, and what is behind it. -/
def expSign (st : JsonParseState) : Bool × JsonParseState :=
  match st.view with
  | first :: _ =>
    if first = 0x2B then (false, st.skipBy 1)
    else if first = 0x2D then (true, st.skipBy 1)
    else (false, st)
  | [] => (false, st)

/-- `json_parse_impl_parse_number_exp_part`. -/
def parseNumberExpPart (st : JsonParseState) : Parse ℤ :=
  match st.view with
  | [] => st.errorAt "empty number exp part: expected 'e' or 'E' but got eof"
  | next :: _ =>
    if next ≠ 0x65 ∧ next ≠ 0x45 then
      st.errorAt "wrong number exp part: missing starting 'e' / 'E'"
    else
      let st := st.skipBy 1
      if st.isEof then st.errorAt "empty number exp part: <EOF> after 'e'"
      else
        let (minus, st) := expSign st
        match st.view with
        | [] => st.errorAt "empty number exp part: no values after 'e' and optional sign"
        | first :: rest =>
          if ¬ isDigit first then st.errorAt "invalid number exp part: incorrect start"
          else
            (expPartLoop rest (st.loc.advanceColBy 1) (first - 0x30).toNat).andThen fun value st =>
              .ok (if minus then -value else value, st)

/-- `json_number_make_value_int_exp`, with `get_power_of_10`. -/
def jsonNumberMakeValueIntExp (intValue : ℚ) (exp : ℤ) : ℚ :=
  if exp = 0 then intValue
  else if exp < 0 then intValue / 10 ^ (-exp).toNat
  else intValue * 10 ^ exp.toNat

/-- `minus ? -value : value`, as a value of JSON. -/
def signedNumber (minus : Bool) (value : ℚ) : JsonValue :=
  .number (if minus then -value else value)

/-- `json_parse_impl_parse_number` behind a fraction, with the value up to there. -/
def parseNumberBehindFrac (minus : Bool) (value : ℚ) (st : JsonParseState) : Parse JsonValue :=
  match st.view with
  | [] => .ok (signedNumber minus value, st)
  | next :: _ =>
    if next = 0x65 ∨ next = 0x45 then
      (parseNumberExpPart st).andThen fun exp st =>
      .ok (signedNumber minus (jsonNumberMakeValueIntExp value exp), st)
    else .ok (signedNumber minus value, st)

/-- `json_parse_impl_parse_number` behind the integer part. An exponent directly behind it must
be the end of the data: what comes then is `assert(false)`. -/
def parseNumberBehindInt (minus : Bool) (intValue : ℚ) (st : JsonParseState) : Parse JsonValue :=
  match st.view with
  | [] => .ok (signedNumber minus intValue, st)
  | next :: _ =>
    if next = 0x2E then
      (parseNumberFracPart st).andThen fun frac st =>
      parseNumberBehindFrac minus (intValue + frac) st
    else if next = 0x65 ∨ next = 0x45 then
      (parseNumberExpPart st).andThen fun exp st =>
      if st.isEof then
        .ok (signedNumber minus (jsonNumberMakeValueIntExp intValue exp), st)
      else .error (.fault .assertion)
    else .ok (signedNumber minus intValue, st)

/-- `json_parse_impl_parse_number`. -/
def parseNumber (st : JsonParseState) : Parse JsonValue :=
  match st.view with
  | [] => st.errorAt "empty number: expected number-start but got eof"
  | minusChar :: _ =>
    let minus := minusChar == 0x2D
    let st := if minus then st.skipBy 1 else st
    if st.isEof then st.errorAt "empty number: <EOF> after '-'"
    else
      (parseNumberIntPart st).andThen fun intPart st =>
      parseNumberBehindInt minus intPart.toNat st

/-! ## Strings -/

/-- `utf8_get_next_char_and_consume`. -/
def utf8GetNextCharAndConsume (utf8 : Utf8proc) (st : JsonParseState) : Parse Utf8Codepoint :=
  if st.isEof then st.errorAt "empty string: <EOF> when getting next char"
  else
    let (result, codepoint) := utf8.iterate st.view
    if result < 0 then st.errorAt (utf8.errmsg result)
    else if result = 0 then st.errorAt "invalid codepoint length"
    else if st.view.length < result.toNat then .error (.fault .assertion)
    else .ok (codepoint, st.skipBy result.toNat)

/-- The value of a hexadecimal digit. -/
def hexValue (value : UInt8) : Option ℕ :=
  if 0x30 ≤ value ∧ value ≤ 0x39 then some (value.toNat - 0x30)
  else if 0x41 ≤ value ∧ value ≤ 0x46 then some (value.toNat - 0x41 + 10)
  else if 0x61 ≤ value ∧ value ≤ 0x66 then some (value.toNat - 0x61 + 10)
  else none

/-- The loop over the four digits of a unicode escape. -/
def composeCodepoint : Bytes → Utf8Codepoint → Option Utf8Codepoint
  | [], composed => some composed
  | value :: rest, composed =>
    match hexValue value with
    | some num => composeCodepoint rest (composed * 0x10 + num)
    | none => none

/-- The unicode escape of `escape_logic`, behind its letter. -/
def parseUnicodeEscape (st : JsonParseState) : Parse Utf8Codepoint :=
  if st.view.length < 4 then
    st.errorAt ("invalid string escape sequence: unicode escape is missing values, it " ++
      "requires at least 4 chars after it")
  else
    match composeCodepoint (st.view.take 4) 0 with
    | some composed => .ok (composed, st.skipBy 4)
    | none => st.errorAt "invalid string escape sequence: unicode escape has invalid digits"

/-- `escape_logic`: the code point of an escape sequence, behind the reverse solidus. -/
def parseEscape (st : JsonParseState) : Parse Utf8Codepoint :=
  match st.view with
  | [] => st.errorAt "empty string escape sequence"
  | escapeChar :: _ =>
    let st := st.skipBy 1
    if escapeChar = 0x22 then .ok (0x22, st)
    else if escapeChar = 0x5C then .ok (0x5C, st)
    else if escapeChar = 0x2F then .ok (0x2F, st)
    else if escapeChar = 0x62 then .ok (0x08, st)
    else if escapeChar = 0x66 then .ok (0x0C, st)
    else if escapeChar = 0x6E then .ok (0x0A, st)
    else if escapeChar = 0x72 then .ok (0x0D, st)
    else if escapeChar = 0x74 then .ok (0x09, st)
    else if escapeChar = 0x75 then parseUnicodeEscape st
    else st.errorAt "invalid string escape sequence: not a recognized escape char"

/-- The loop of `json_parse_impl_parse_string`. -/
def stringLoop (utf8 : Utf8proc) : ℕ → JsonParseState → JsonString → Parse JsonString
  | 0, _, _ => .error (.fault .outOfFuel)
  | fuel + 1, st, string =>
    if st.isEof then st.errorAt "empty string: expected '\"' or string-char but got eof"
    else
      (utf8GetNextCharAndConsume utf8 st).andThen fun codepoint st =>
      if codepoint < 0 then st.errorAt "invalid string char: range (-inf, 0)"
      else if codepoint < 0x20 then st.errorAt "invalid string char: range [0, 0x20)"
      else if codepoint ≤ 0x21 then stringLoop utf8 fuel st (string ++ [codepoint])
      else if codepoint = 0x22 then .ok (string, st)
      else if codepoint ≤ 0x5B then stringLoop utf8 fuel st (string ++ [codepoint])
      else if codepoint = 0x5C then
        (parseEscape st).andThen fun codepoint st =>
        stringLoop utf8 fuel st (string ++ [codepoint])
      else if codepoint ≤ 0x10FFFF then stringLoop utf8 fuel st (string ++ [codepoint])
      else st.errorAt "invalid string char: range (0x10FFFF, +inf)"

/-- `json_parse_impl_parse_string`, with the string before it becomes a value. -/
def parseString (utf8 : Utf8proc) (st : JsonParseState) : Parse JsonString :=
  match st.view with
  | [] => st.errorAt "empty string: expected '\"' but got eof"
  | next :: _ =>
    if next ≠ 0x22 then st.errorAt "wrong quotation-mark"
    else
      let st := st.skipBy 1
      if st.isEof then st.errorAt "empty string: <EOF> after '\"'"
      else stringLoop utf8 (st.view.length + 1) st []

/-! ## Objects -/

/-- The name separator of `json_parse_impl_parse_object_member`. -/
def parseNameSeparator (st : JsonParseState) : Parse Unit :=
  let st := skipWs st
  match st.view with
  | [] => st.errorAt "empty object member: missing 'name-separator' after member name"
  | next :: _ =>
    if next ≠ 0x3A then st.errorAt "wrong name-separator"
    else
      let st := st.skipBy 1
      if st.isEof then st.errorAt "empty object member: mssing value after 'name-separator'"
      else .ok ((), skipWs st)

/-- The end of `json_parse_impl_parse_object_member`: the object with one more entry. -/
def addMember (key : JsonString) (object : JsonObject) (value : JsonValue) (st : JsonParseState) :
    Parse JsonObject :=
  match jsonObjectAddEntryImpl object key value with
  | .error message => st.errorAt message
  | .ok object => .ok (object, st)

section Nested

variable (utf8 : Utf8proc) (parseValue : JsonParseState → Parse JsonValue)

/-- `json_parse_impl_parse_object_member`. -/
def parseObjectMember (st : JsonParseState) (object : JsonObject) : Parse JsonObject :=
  if st.isEof then
    st.errorAt "empty object member: missing member after 'value-separator'"
  else
    (parseString utf8 st).andThen fun key st =>
    (parseNameSeparator st).andThen fun _ st =>
    (parseValue st).andThen (addMember key object)

/-- The loop of `json_parse_impl_parse_object`. -/
def objectLoop : ℕ → JsonParseState → JsonObject → Parse JsonValue
  | 0, _, _ => .error (.fault .outOfFuel)
  | fuel + 1, st, object =>
    let st := skipWs st
    match st.view with
    | [] => st.errorAt "empty object: missing 'member' or 'end-object'"
    | endChar :: _ =>
      if endChar = 0x7D then .ok (.object object, skipWs (st.skipBy 1))
      else if endChar ≠ 0x2C then st.errorAt "invalid continuation of member in object"
      else
        (parseObjectMember utf8 parseValue (skipWs (st.skipBy 1)) object).andThen fun object st =>
        objectLoop fuel st object

/-- `json_parse_impl_parse_object`. -/
def parseObject (st : JsonParseState) : Parse JsonValue :=
  if st.isEof then st.errorAt "empty object: missing 'begin-object'"
  else
    let st := skipWs st
    match st.view with
    | [] => st.errorAt "empty object: missing '\x7b'"
    | next :: _ =>
      if next ≠ 0x7B then st.errorAt "wrong begin-object"
      else
        let st := skipWs (st.skipBy 1)
        if st.isEof then st.errorAt "empty object: <EOF> after '\x7b'"
        else
          let st := skipWs st
          match st.view with
          | [] =>
            st.errorAt "empty object: missing 'member' or 'end-object' after 'begin-object'"
          | next :: _ =>
            if next = 0x7D then .ok (.object [], skipWs (st.skipBy 1))
            else
              (parseObjectMember utf8 parseValue st []).andThen fun object st =>
              objectLoop utf8 parseValue (st.view.length + 1) st object

/-! ## Arrays -/

/-- `json_parse_impl_parse_array_value`: the array with one more value. -/
def parseArrayValue (st : JsonParseState) (array : JsonArray) : Parse JsonArray :=
  if st.isEof then st.errorAt "empty array value"
  else
    (parseValue st).andThen fun value st =>
    .ok (array ++ [value], st)

/-- The loop of `json_parse_impl_parse_array`. -/
def arrayLoop : ℕ → JsonParseState → JsonArray → Parse JsonValue
  | 0, _, _ => .error (.fault .outOfFuel)
  | fuel + 1, st, array =>
    let st := skipWs st
    match st.view with
    | [] => st.errorAt "empty array: missing 'value' or 'end-array'"
    | endChar :: _ =>
      if endChar = 0x5D then .ok (.array array, skipWs (st.skipBy 1))
      else if endChar ≠ 0x2C then st.errorAt "invalid continuation of values in array"
      else
        (parseArrayValue parseValue (skipWs (st.skipBy 1)) array).andThen fun array st =>
        arrayLoop fuel st array

/-- `json_parse_impl_parse_array`. -/
def parseArray (st : JsonParseState) : Parse JsonValue :=
  if st.isEof then st.errorAt "empty array: missing 'begin-array'"
  else
    let st := skipWs st
    match st.view with
    | [] => st.errorAt "empty array: missing '['"
    | next :: _ =>
      if next ≠ 0x5B then st.errorAt "wrong begin-array"
      else
        let st := skipWs (st.skipBy 1)
        if st.isEof then st.errorAt "empty array: <EOF> after '['"
        else
          let st := skipWs st
          match st.view with
          | [] => st.errorAt "empty array: missing 'value' or 'end-array' after 'begin-array'"
          | next :: _ =>
            if next = 0x5D then .ok (.array [], skipWs (st.skipBy 1))
            else
              (parseArrayValue parseValue st []).andThen fun array st =>
              arrayLoop parseValue (st.view.length + 1) st array

end Nested

/-! ## Values and whole texts -/

/-- `json_parse_impl_parse_value`. -/
def parseValue (utf8 : Utf8proc) : ℕ → JsonParseState → Parse JsonValue
  | 0, _ => .error (.fault .outOfFuel)
  | fuel + 1, st =>
    match st.view with
    | [] => st.errorAt "empty value: expected value but got eof"
    | firstChar :: _ =>
      if firstChar = 0x66 then parseBoolean st
      else if firstChar = 0x6E then parseNull st
      else if firstChar = 0x74 then parseBoolean st
      else if firstChar = 0x7B then parseObject utf8 (parseValue utf8 fuel) st
      else if firstChar = 0x5B then parseArray (parseValue utf8 fuel) st
      else if firstChar = 0x2D then parseNumber st
      else if firstChar = 0x22 then
        (parseString utf8 st).andThen fun string st =>
        .ok (.string string, st)
      else if isDigit firstChar then parseNumber st
      else if isWs firstChar then
        st.errorAt "implementation error, skip whitespace, before parsing 'value'"
      else st.errorAt "invalid value: no value type was detected based on the start-char"

/-- `json_value_parse_from_str_impl`. -/
def jsonValueParseFromStrImpl (utf8 : Utf8proc) (st : JsonParseState) :
    Except Fault JsonParseResult :=
  let st := skipWs st
  match parseValue utf8 (st.view.length + 1) st with
  | .error (.fault fault) => .error fault
  | .error (.error error) => .ok (.error error)
  | .ok (value, st) =>
    let st := skipWs st
    if st.isEof then .ok (.ok value)
    else .ok (.error ⟨"Didn't reach the end, invalid data at the end", st.loc⟩)

/-- `json_value_parse_from_str`. -/
def jsonValueParseFromStr (utf8 : Utf8proc) (data : Bytes) : Except Fault JsonParseResult :=
  jsonValueParseFromStrImpl utf8 ⟨data, ⟨.string data, ⟨0, 0⟩⟩⟩

end SimpleServer.Json
