import SimpleServer.Lib.Utf8
import SimpleServer.Utils.Bytes

/-!
# JSON values (`json.h`, `json.c`)

A `JsonObject` is a hash map. It stands here as the list of its entries, in the order of
insertion; equality of values (`JsonValue.same`) does not see that order. A `double` stands as the
rational number that the operations of the source give before rounding. The functions of
`utf8proc` are a parameter (`Utf8proc`). Memory is found, and the stack is as deep as needed.

* `JsonObject.nodup_append`: adding an entry keeps the keys distinct.
* `Utf8proc.plain_decodes`: the decoder of the Lean library does what `utf8proc_iterate` does.
-/

namespace SimpleServer.Json

/-- `Utf8Codepoint`, an `int32_t`. -/
abbrev Utf8Codepoint := ℤ

/-- `JsonString`: its code points. -/
abbrev JsonString := List Utf8Codepoint

inductive JsonValue where
  | object (entries : List (JsonString × JsonValue))
  | array (values : List JsonValue)
  | number (value : ℚ)
  | string (string : JsonString)
  | boolean (value : Bool)
  | null

abbrev JsonObject := List (JsonString × JsonValue)

abbrev JsonArray := List JsonValue

/-! ## Objects as maps -/

def JsonObject.keys (object : JsonObject) : List JsonString := object.map Prod.fst

/-- `json_object_add_entry_impl`: `TMAP_INSERT` without overwriting. -/
def jsonObjectAddEntryImpl (object : JsonObject) (key : JsonString) (value : JsonValue) :
    Except String JsonObject :=
  if key ∈ object.keys then .error "json object has duplicate key"
  else .ok (object ++ [(key, value)])

/-- An entry is added exactly when its key is new. -/
theorem jsonObjectAddEntryImpl_ok {object object' : JsonObject} {key : JsonString}
    {value : JsonValue} :
    jsonObjectAddEntryImpl object key value = .ok object' ↔
      key ∉ object.keys ∧ object' = object ++ [(key, value)] := by
  unfold jsonObjectAddEntryImpl
  split_ifs with h
  · simp [h]
  · simp [h, eq_comm]

@[simp] theorem JsonObject.keys_append (object object' : JsonObject) :
    JsonObject.keys (object ++ object') = object.keys ++ object'.keys :=
  List.map_append

/-- The keys stay distinct when a new one is added. -/
theorem JsonObject.nodup_append {object : JsonObject} {key : JsonString} {value : JsonValue}
    (hnew : key ∉ object.keys) (hdistinct : object.keys.Nodup) :
    (JsonObject.keys (object ++ [(key, value)])).Nodup := by
  rw [JsonObject.keys_append]
  exact List.nodup_append_comm.1 (List.nodup_cons.2 ⟨hnew, hdistinct⟩)

/-- The entry of a key (`json_object_get_entry_by_key`). -/
def JsonObject.get (object : JsonObject) (key : JsonString) : Option JsonValue :=
  object.lookup key

/-- An entry is found under its key. -/
theorem JsonObject.get_of_mem {object : JsonObject} {key : JsonString} {value : JsonValue}
    (hkeys : object.keys.Nodup) (h : (key, value) ∈ object) : object.get key = some value := by
  induction object with
  | nil => cases h
  | cons entry object ih =>
    rw [keys, List.map_cons, List.nodup_cons] at hkeys
    rcases List.mem_cons.1 h with rfl | hmem
    · exact List.lookup_cons_self
    · have hne : (key == entry.1) = false := by
        rw [beq_eq_false_iff_ne]
        rintro rfl
        exact hkeys.1 (List.mem_map.2 ⟨_, hmem, rfl⟩)
      rw [get, List.lookup_cons, hne]
      exact ih hkeys.2 hmem

/-! ## Parts of values -/

/-- Induction over the values inside a value. -/
@[elab_as_elim]
theorem JsonValue.induction {motive : JsonValue → Prop}
    (object : ∀ entries, (∀ entry ∈ entries, motive entry.2) → motive (.object entries))
    (array : ∀ values, (∀ value ∈ values, motive value) → motive (.array values))
    (number : ∀ value, motive (.number value)) (string : ∀ string, motive (.string string))
    (boolean : ∀ value, motive (.boolean value)) (null : motive .null) :
    ∀ value, motive value
  | .object entries => object entries fun entry _ =>
      JsonValue.induction object array number string boolean null entry.2
  | .array values => array values fun value _ =>
      JsonValue.induction object array number string boolean null value
  | .number value => number value
  | .string value => string value
  | .boolean value => boolean value
  | .null => null
termination_by value => sizeOf value
decreasing_by
  · rename_i hmem
    have hsize := List.sizeOf_lt_of_mem hmem
    rcases entry with ⟨key, value⟩
    simp only [JsonValue.object.sizeOf_spec, Prod.mk.sizeOf_spec] at hsize ⊢
    omega
  · rename_i hmem
    have hsize := List.sizeOf_lt_of_mem hmem
    simp only [JsonValue.array.sizeOf_spec]
    omega

mutual

/-- The strings of a value, keys included. -/
def JsonValue.strings : JsonValue → List JsonString
  | .object entries => JsonObject.strings entries
  | .array values => JsonArray.strings values
  | .string string => [string]
  | _ => []

def JsonArray.strings : List JsonValue → List JsonString
  | [] => []
  | value :: values => value.strings ++ JsonArray.strings values

def JsonObject.strings : List (JsonString × JsonValue) → List JsonString
  | [] => []
  | (key, value) :: entries => key :: (value.strings ++ JsonObject.strings entries)

end

mutual

def JsonValue.numbers : JsonValue → List ℚ
  | .object entries => JsonObject.numbers entries
  | .array values => JsonArray.numbers values
  | .number value => [value]
  | _ => []

def JsonArray.numbers : List JsonValue → List ℚ
  | [] => []
  | value :: values => value.numbers ++ JsonArray.numbers values

def JsonObject.numbers : List (JsonString × JsonValue) → List ℚ
  | [] => []
  | (_, value) :: entries => value.numbers ++ JsonObject.numbers entries

end

mutual

/-- The objects are maps: no key stands twice. -/
def JsonValue.DistinctKeys : JsonValue → Prop
  | .object entries => (JsonObject.keys entries).Nodup ∧ JsonObject.DistinctKeys entries
  | .array values => JsonArray.DistinctKeys values
  | _ => True

def JsonArray.DistinctKeys : List JsonValue → Prop
  | [] => True
  | value :: values => value.DistinctKeys ∧ JsonArray.DistinctKeys values

def JsonObject.DistinctKeys : List (JsonString × JsonValue) → Prop
  | [] => True
  | (_, value) :: entries => value.DistinctKeys ∧ JsonObject.DistinctKeys entries

end

mutual

/-- Equality of values, as the tests of the repository see it: arrays in order, objects as
maps. -/
def JsonValue.same : JsonValue → JsonValue → Bool
  | .object entries, .object object =>
    entries.length == object.length && JsonObject.same entries object
  | .array values, .array values' => JsonArray.same values values'
  | .number value, .number value' => value == value'
  | .string string, .string string' => string == string'
  | .boolean value, .boolean value' => value == value'
  | .null, .null => true
  | _, _ => false

def JsonArray.same : List JsonValue → List JsonValue → Bool
  | [], [] => true
  | value :: values, value' :: values' => value.same value' && JsonArray.same values values'
  | _, _ => false

def JsonObject.same : List (JsonString × JsonValue) → JsonObject → Bool
  | [], _ => true
  | (key, value) :: entries, object =>
    (match object.get key with
      | some value' => value.same value'
      | none => false) && JsonObject.same entries object

end

section Parts

variable {values values' : JsonArray} {entries object : JsonObject} {string : JsonString}

theorem JsonArray.mem_strings :
    string ∈ JsonArray.strings values ↔ ∃ value ∈ values, string ∈ value.strings := by
  induction values with
  | nil => simp [strings]
  | cons value values ih => simp [strings, ih]

theorem JsonObject.mem_strings : string ∈ JsonObject.strings entries ↔
    ∃ entry ∈ entries, string = entry.1 ∨ string ∈ entry.2.strings := by
  induction entries with
  | nil => simp [strings]
  | cons entry entries ih => simp [strings, ih, or_assoc]

theorem JsonArray.numbers_eq_nil :
    JsonArray.numbers values = [] ↔ ∀ value ∈ values, value.numbers = [] := by
  induction values with
  | nil => simp [numbers]
  | cons value values ih => simp [numbers, ih]

theorem JsonObject.numbers_eq_nil :
    JsonObject.numbers entries = [] ↔ ∀ entry ∈ entries, entry.2.numbers = [] := by
  induction entries with
  | nil => simp [numbers]
  | cons entry entries ih => simp [numbers, ih]

theorem JsonArray.distinctKeys_iff :
    JsonArray.DistinctKeys values ↔ ∀ value ∈ values, value.DistinctKeys := by
  induction values with
  | nil => simp [DistinctKeys]
  | cons value values ih => simp [DistinctKeys, ih]

theorem JsonObject.distinctKeys_iff :
    JsonObject.DistinctKeys entries ↔ ∀ entry ∈ entries, entry.2.DistinctKeys := by
  induction entries with
  | nil => simp [DistinctKeys]
  | cons entry entries ih => simp [DistinctKeys, ih]

theorem JsonArray.same_iff : JsonArray.same values values' = true ↔
    List.Forall₂ (fun value value' => value.same value' = true) values values' := by
  induction values generalizing values' with
  | nil => cases values' <;> simp [same]
  | cons value values ih => cases values' <;> simp [same, ih]

theorem JsonObject.same_iff : JsonObject.same entries object = true ↔
    ∀ entry ∈ entries, ∃ value, object.get entry.1 = some value ∧ entry.2.same value = true := by
  induction entries with
  | nil => simp [same]
  | cons entry entries ih =>
    rw [same, Bool.and_eq_true, ih, List.forall_mem_cons]
    cases object.get entry.1 <;> simp

end Parts

/-! ## Locations, errors and results -/

structure SourcePosition where
  line : ℕ
  col : ℕ
deriving Repr, DecidableEq

inductive JsonSource where
  | file (filePath : Option Bytes)
  | string (data : Bytes)
deriving Repr, DecidableEq

structure SourceLocation where
  source : JsonSource
  pos : SourcePosition
deriving Repr, DecidableEq

structure JsonError where
  message : String
  loc : SourceLocation
deriving Repr, DecidableEq

inductive JsonParseResult where
  | ok (value : JsonValue)
  | error (error : JsonError)

/-- What ends the program or leaves what the language defines: a failing `assert`, a failing
`OOM_ASSERT`, undefined behaviour. `outOfFuel` belongs to the model. -/
inductive Fault where
  | assertion
  | oomAssert (message : String)
  | undefined
  | outOfFuel
deriving Repr, DecidableEq

/-! ## `utf8proc` -/

/-- The functions of `utf8proc` in use: `utf8proc_iterate` with the number of bytes and the code
point, `utf8proc_errmsg`, the test for the category `Cc`, and `utf8proc_encode_char`. -/
structure Utf8proc where
  iterate : Bytes → ℤ × Utf8Codepoint
  errmsg : ℤ → String
  isControl : Utf8Codepoint → Bool
  encodeChar : Utf8Codepoint → Bytes

/-- `utf8proc_iterate` decodes exactly the well-formed sequences: one scalar value at a time,
and nothing where none of them starts. -/
structure Utf8proc.Decodes (utf8 : Utf8proc) : Prop where
  scalar : ∀ (c : Char) (rest : Bytes), utf8.iterate (String.utf8EncodeChar c ++ rest) =
    (((String.utf8EncodeChar c).length : ℤ), (c.toNat : ℤ))
  malformed : ∀ bytes : Bytes, (∀ c : Char, ¬ String.utf8EncodeChar c <+: bytes) →
    (utf8.iterate bytes).1 ≤ 0

/-- `utf8proc_encode_char`: the bytes of a code point by its size, surrogates included. -/
def encodeByRange (codepoint : Utf8Codepoint) : Bytes :=
  if codepoint < 0 then [] else Lib.encodeCodepoint codepoint.toNat

/-- The control characters. -/
def IsControl (codepoint : ℤ) : Prop :=
  codepoint < 0x20 ∨ 0x7F ≤ codepoint ∧ codepoint ≤ 0x9F

instance (codepoint : ℤ) : Decidable (IsControl codepoint) :=
  inferInstanceAs (Decidable (_ ∨ _))

/-- `utf8proc_encode_char` sees the size of a code point, and the category `Cc` is that of the
control characters. -/
structure Utf8proc.Prints (utf8 : Utf8proc) : Prop where
  encodeChar : ∀ codepoint, utf8.encodeChar codepoint = encodeByRange codepoint
  isControl : ∀ codepoint, 0 ≤ codepoint →
    (utf8.isControl codepoint = true ↔ IsControl codepoint)

/-- The decoder of the Lean library, with the encoder by ranges. -/
def Utf8proc.plain : Utf8proc where
  iterate bytes :=
    match bytes.toByteArray.utf8DecodeChar? 0 with
    | some c => (c.utf8Size, c.toNat)
    | none => (if bytes.length = 0 then 0 else -3, -1)
  errmsg result := if result = -3 then "Invalid UTF-8 string" else "Unknown error"
  isControl codepoint := IsControl codepoint
  encodeChar := encodeByRange

theorem Utf8proc.plain_decodes : Utf8proc.plain.Decodes where
  scalar c rest := by
    have hdecode : (String.utf8EncodeChar c ++ rest).toByteArray.utf8DecodeChar? 0 = some c := by
      rw [List.toByteArray_append]
      exact ByteArray.utf8DecodeChar?_utf8EncodeChar_append
    simp only [Utf8proc.plain, hdecode, String.length_utf8EncodeChar]
  malformed bytes h := by
    simp only [Utf8proc.plain]
    split
    · rename_i c hc
      exfalso
      apply h c
      obtain ⟨rest, hrest⟩ := ByteArray.exists_of_utf8DecodeChar?_eq_some hc
      refine ⟨rest.data.toList, ?_⟩
      have hdata := congrArg (fun b => b.data.toList) hrest
      simpa using hdata.symm
    · split_ifs <;> simp

theorem Utf8proc.plain_prints : Utf8proc.plain.Prints where
  encodeChar _ := rfl
  isControl _ _ := decide_eq_true_iff

end SimpleServer.Json
