import SimpleServer.Json.Value

/-!
# Printing JSON values (`json.c`)

A function that appends to the string builder gives the bytes it appends. The order of the
entries of a hash map and the digits that `"%f"` gives for a number are parameters.

* `jsonValueToStringAdvanced`: the text of a value.
-/

namespace SimpleServer.Json

/-- The order in which `json_object_iterator_next` gives the entries of a hash map, whatever
they hold. -/
structure EntryOrder where
  iterate : {α : Type} → List (JsonString × α) → List (JsonString × α)
  perm : ∀ {α : Type} (entries : List (JsonString × α)), (iterate entries).Perm entries

/-- The order of insertion. -/
def EntryOrder.insertion : EntryOrder := ⟨fun entries => entries, fun entries => .refl entries⟩

/-! ## Strings -/

/-- `json_impl_needs_escaping`. -/
def jsonImplNeedsEscaping (utf8 : Utf8proc) (codepoint : Utf8Codepoint) : Bool :=
  if codepoint = 0x22 ∨ codepoint = 0x5C then true
  else if codepoint = 0x2F then false
  else if codepoint = 0x08 ∨ codepoint = 0x0C ∨ codepoint = 0x0A ∨ codepoint = 0x0D ∨
      codepoint = 0x09 then true
  else utf8.isControl codepoint

/-- `json_impl_escape_char_into`: the bytes it writes. The escape of four digits comes behind
`assert(false)`. -/
def jsonImplEscapeCharInto (codepoint : Utf8Codepoint) : Except Fault Bytes :=
  if codepoint = 0x22 ∨ codepoint = 0x5C ∨ codepoint = 0x2F then
    .ok [0x5C, UInt8.ofNat codepoint.toNat]
  else if codepoint = 0x08 then .ok [0x5C, 0x62]
  else if codepoint = 0x0C then .ok [0x5C, 0x66]
  else if codepoint = 0x0A then .ok [0x5C, 0x6E]
  else if codepoint = 0x0D then .ok [0x5C, 0x72]
  else if codepoint = 0x09 then .ok [0x5C, 0x74]
  else if codepoint > 0xFFFF then
    .error (.oomAssert "Surrogate pair escaping not implemented yet")
  else .error .assertion

/-- The loop of `get_normalized_string_from_codepoints_json_escaped`. -/
def normalizeLoop (utf8 : Utf8proc) : JsonString → Bytes → Except Fault (Option Bytes)
  | [], buffer => .ok (some buffer)
  | codepoint :: codepoints, buffer =>
    if jsonImplNeedsEscaping utf8 codepoint then
      match jsonImplEscapeCharInto codepoint with
      | .error fault => .error fault
      | .ok escaped => normalizeLoop utf8 codepoints (buffer ++ escaped)
    else
      let encoded := utf8.encodeChar codepoint
      if encoded.length = 0 then .ok none
      else normalizeLoop utf8 codepoints (buffer ++ encoded)

/-- `get_normalized_string_from_codepoints_json_escaped`. A string without code points has no
data. -/
def getNormalizedStringFromCodepointsJsonEscaped (utf8 : Utf8proc) (codepoints : JsonString) :
    Except Fault (Option Bytes) :=
  if codepoints = [] then .ok none else normalizeLoop utf8 codepoints []

/-- `FORMAT_STRING` for a text of these bytes: `snprintf` counts them, and one more, in an
`int`. -/
def formatString (bytes : Bytes) : Except Fault Bytes :=
  if bytes.length + 1 < 2 ^ 31 then .ok bytes else .error .undefined

/-- `json_to_string_string_impl`. -/
def jsonToStringStringImpl (utf8 : Utf8proc) (string : JsonString) : Except Fault Bytes :=
  match getNormalizedStringFromCodepointsJsonEscaped utf8 string with
  | .error fault => .error fault
  | .ok none => .error (.oomAssert "error in formatting json string")
  | .ok (some escaped) => formatString (0x22 :: (escaped ++ [0x22]))

/-! ## Arrays and objects -/

/-- `start_str`. -/
def startStr (bracket : UInt8) (indentSize : ℕ) : Bytes :=
  if indentSize > 4 then [bracket, 0x0A] else [bracket]

/-- `separator_str`. -/
def separatorStr (indentSize : ℕ) : Bytes :=
  if indentSize = 0 then [0x2C, 0x20]
  else if indentSize > 4 then [0x2C, 0x0A]
  else 0x2C :: List.replicate indentSize 0x20

/-- `end_str`. -/
def endStr (bracket : UInt8) (indentSize : ℕ) : Bytes :=
  if indentSize > 4 then [0x0A, bracket] else [bracket]

/-- The loops over the values of an array and the entries of an object, with a separator in
front of all but the first. -/
def appendSeparated (separator : Bytes) : Bool → List (Except Fault Bytes) → Except Fault Bytes
  | _, [] => .ok []
  | start, part :: parts => do
    let bytes ← part
    let rest ← appendSeparated separator false parts
    .ok ((if start then [] else separator) ++ (bytes ++ rest))

/-- `json_to_string_array_impl`, with what the values append. -/
def jsonToStringArrayImpl (indentSize : ℕ) (values : List (Except Fault Bytes)) :
    Except Fault Bytes := do
  let inner ← appendSeparated (separatorStr indentSize) true values
  .ok (startStr 0x5B indentSize ++ (inner ++ endStr 0x5D indentSize))

/-- One entry of `json_to_string_object_impl`. -/
def jsonToStringEntry (utf8 : Utf8proc) (entry : JsonString × Except Fault Bytes) :
    Except Fault Bytes := do
  let key ← jsonToStringStringImpl utf8 entry.1
  let value ← entry.2
  .ok (key ++ (ascii ": " ++ value))

/-- `json_to_string_object_impl`, with what the values append. -/
def jsonToStringObjectImpl (utf8 : Utf8proc) (order : EntryOrder) (indentSize : ℕ)
    (entries : List (JsonString × Except Fault Bytes)) : Except Fault Bytes := do
  let inner ← appendSeparated (separatorStr indentSize) true
    ((order.iterate entries).map (jsonToStringEntry utf8))
  .ok (startStr 0x7B indentSize ++ (inner ++ endStr 0x7D indentSize))

/-! ## Values -/

section Values

variable (utf8 : Utf8proc) (order : EntryOrder) (formatNumber : ℚ → Bytes) (indentSize : ℕ)

mutual

/-- `json_to_string_variant_impl`. -/
def jsonToStringVariantImpl : JsonValue → Except Fault Bytes
  | .object entries => jsonToStringObjectImpl utf8 order indentSize (entriesToString entries)
  | .array values => jsonToStringArrayImpl indentSize (valuesToString values)
  | .number value => formatString (formatNumber value)
  | .string string => jsonToStringStringImpl utf8 string
  | .boolean value => .ok (if value then ascii "true" else ascii "false")
  | .null => .ok (ascii "null")

def valuesToString : List JsonValue → List (Except Fault Bytes)
  | [] => []
  | value :: values => jsonToStringVariantImpl value :: valuesToString values

def entriesToString : List (JsonString × JsonValue) → List (JsonString × Except Fault Bytes)
  | [] => []
  | (key, value) :: entries => (key, jsonToStringVariantImpl value) :: entriesToString entries

end

/-- `json_value_to_string_advanced`: a null string when nothing was appended. -/
def jsonValueToStringAdvanced (value : JsonValue) : Except Fault (Option Bytes) := do
  let bytes ← jsonToStringVariantImpl utf8 order formatNumber indentSize value
  .ok (if bytes.length = 0 then none else some bytes)

theorem valuesToString_eq_map (values : JsonArray) :
    valuesToString utf8 order formatNumber indentSize values =
      values.map (jsonToStringVariantImpl utf8 order formatNumber indentSize) := by
  induction values with
  | nil => rfl
  | cons value values ih => rw [valuesToString, ih, List.map_cons]

theorem entriesToString_eq_map (entries : JsonObject) :
    entriesToString utf8 order formatNumber indentSize entries = entries.map fun entry =>
      (entry.1, jsonToStringVariantImpl utf8 order formatNumber indentSize entry.2) := by
  induction entries with
  | nil => rfl
  | cons entry entries ih => rw [entriesToString, ih, List.map_cons]

end Values

end SimpleServer.Json
