import SimpleServer.Proof.JsonNumber
import SimpleServer.Proof.JsonString

/-!
# The steps of the JSON parser

What the functions for values, arrays and objects do on a given first byte, and one round of
their loops.

* `ValueText.Accepted`: what the parser checks on a text that follows the grammar.
* `Stops`: the texts at which the parser ends in a fault.
-/

namespace SimpleServer.Json

variable {utf8 : Utf8proc} {view rest : Bytes} {c : UInt8} {st st' : JsonParseState}

/-! ## Whitespace -/

/-- The bytes behind the whitespace at the beginning. -/
def dropWs (view : Bytes) : Bytes := view.dropWhile isWs

@[simp] theorem skipWs_view (st : JsonParseState) : (skipWs st).view = dropWs st.view := rfl

theorem isWs_byte (w : Ws) : isWs w.byte = true := by cases w <;> rfl

@[simp] theorem dropWs_spaces (ws : List Ws) (rest : Bytes) :
    dropWs (spaces ws ++ rest) = dropWs rest := by
  induction ws with
  | nil => rfl
  | cons w ws ih =>
    have hw : dropWs (w.byte :: (spaces ws ++ rest)) = dropWs (spaces ws ++ rest) :=
      List.dropWhile_cons_of_pos (isWs_byte w)
    exact hw.trans ih

theorem dropWs_cons (h : isWs c = false) : dropWs (c :: rest) = c :: rest :=
  List.dropWhile_cons_of_neg (by simp [h])

theorem not_isWs_of_dropWs (h : dropWs view = c :: rest) : isWs c = false := by
  have hne : view.dropWhile isWs ≠ [] := by
    intro hnil
    rw [dropWs, hnil] at h
    cases h
  have hhead := List.head_dropWhile_not isWs hne
  rw [dropWs] at h
  simpa [h] using hhead

theorem dropWs_idem (h : dropWs view = c :: rest) : dropWs (c :: rest) = c :: rest :=
  dropWs_cons (not_isWs_of_dropWs h)

theorem exists_ws (h : isWs c = true) : ∃ w : Ws, c = w.byte := by
  simp only [isWs, Bool.or_eq_true, beq_iff_eq] at h
  rcases h with ((h | h) | h) | h
  · exact ⟨.space, h⟩
  · exact ⟨.horizontalTab, h⟩
  · exact ⟨.lineFeed, h⟩
  · exact ⟨.carriageReturn, h⟩

theorem exists_spaces (view : Bytes) : ∃ ws, view = spaces ws ++ dropWs view := by
  induction view with
  | nil => exact ⟨[], rfl⟩
  | cons c view ih =>
    cases hc : isWs c with
    | false => exact ⟨[], (dropWs_cons hc).symm⟩
    | true =>
      obtain ⟨w, rfl⟩ := exists_ws hc
      obtain ⟨ws, hws⟩ := ih
      refine ⟨w :: ws, ?_⟩
      have hdrop : dropWs (w.byte :: view) = dropWs view := List.dropWhile_cons_of_pos hc
      rw [hdrop]
      exact congrArg (w.byte :: ·) hws

theorem dropWs_length_le (view : Bytes) : (dropWs view).length ≤ view.length :=
  (List.dropWhile_suffix isWs).length_le

/-- A structural character with the whitespace around it. -/
theorem dropWs_structural (around : Structural) (h : isWs c = false) (rest : Bytes) :
    dropWs (around.bytes c ++ rest) = c :: (spaces around.after ++ rest) := by
  rw [Structural.bytes, List.append_assoc, List.cons_append, dropWs_spaces, dropWs_cons h]

theorem exists_structural (h : dropWs view = c :: rest) :
    ∃ around : Structural, view = around.bytes c ++ dropWs rest := by
  obtain ⟨before, hbefore⟩ := exists_spaces view
  obtain ⟨after, hafter⟩ := exists_spaces rest
  refine ⟨⟨before, after⟩, ?_⟩
  rw [Structural.bytes, List.append_assoc, List.cons_append, ← hafter, ← h]
  exact hbefore

/-! ## What the parser checks -/

/-- How the code reads numbers and strings. -/
def Reading.code : Reading := ⟨NumberText.read, StringText.units⟩

/-- The integer parts pass the test for an overflow, and no object has a key twice. -/
def ValueText.Accepted (value : ValueText) : Prop :=
  (∀ number ∈ value.numbers, number.int.Unseen) ∧ value.DistinctKeys .code

def MoreValues.Accepted (more : MoreValues) : Prop :=
  (∀ number ∈ more.numbers, number.int.Unseen) ∧ more.DistinctKeys .code

def MoreMembers.Accepted (more : MoreMembers) : Prop :=
  (∀ number ∈ more.numbers, number.int.Unseen) ∧ more.DistinctKeys .code

section Accepted

variable {opening closing comma colon : Structural} {key : StringText} {value : ValueText}

theorem ValueText.accepted_array {more : MoreValues} :
    (array opening value more closing).Accepted ↔ value.Accepted ∧ more.Accepted := by
  simp only [Accepted, MoreValues.Accepted, numbers, DistinctKeys, List.forall_mem_append]
  tauto

theorem ValueText.accepted_object {more : MoreMembers} :
    (object opening key colon value more closing).Accepted ↔
      ((key :: more.keys).map StringText.units).Nodup ∧ value.Accepted ∧ more.Accepted := by
  simp only [Accepted, MoreMembers.Accepted, numbers, DistinctKeys, List.forall_mem_append,
    Reading.code]
  tauto

theorem MoreValues.accepted_cons {more : MoreValues} :
    (cons comma value more).Accepted ↔ value.Accepted ∧ more.Accepted := by
  simp only [Accepted, ValueText.Accepted, numbers, DistinctKeys, List.forall_mem_append]
  tauto

theorem MoreMembers.accepted_cons {more : MoreMembers} :
    (cons comma key colon value more).Accepted ↔ value.Accepted ∧ more.Accepted := by
  simp only [Accepted, ValueText.Accepted, numbers, DistinctKeys, List.forall_mem_append]
  tauto

end Accepted

/-- The text of a value at which the parser ends in a fault: a number at which it stops, as the
value or inside it, behind values and members that it accepts. -/
inductive Stops : Bytes → Prop
  | number {view : Bytes} (h : NumberStops view) : Stops view
  | firstValue (opening : Structural) {view : Bytes} (h : Stops view) :
      Stops (opening.bytes 0x5B ++ view)
  | nextValue (opening : Structural) (first : ValueText) (more : MoreValues) (comma : Structural)
      {view : Bytes} (hfirst : first.Accepted) (hmore : more.Accepted) (h : Stops view) :
      Stops (opening.bytes 0x5B ++ (first.bytes ++ (more.bytes ++ (comma.bytes 0x2C ++ view))))
  | firstMember (opening : Structural) (key : StringText) (colon : Structural) {view : Bytes}
      (h : Stops view) :
      Stops (opening.bytes 0x7B ++ (key.bytes ++ (colon.bytes 0x3A ++ view)))
  | nextMember (opening : Structural) (key : StringText) (colon : Structural) (first : ValueText)
      (more : MoreMembers) (comma : Structural) (key' : StringText) (colon' : Structural)
      {view : Bytes} (hkeys : ((key :: more.keys).map StringText.units).Nodup)
      (hfirst : first.Accepted) (hmore : more.Accepted) (h : Stops view) :
      Stops (opening.bytes 0x7B ++ (key.bytes ++ (colon.bytes 0x3A ++ (first.bytes ++
        (more.bytes ++ (comma.bytes 0x2C ++ (key'.bytes ++ (colon'.bytes 0x3A ++ view))))))))

/-! ## The first byte of a value -/

/-- A number begins with its sign or a digit. -/
theorem NumberText.bytes_head (number : NumberText) :
    ∃ first more, number.bytes = first :: more ∧ (first = 0x2D ∨ isDigit first = true) := by
  obtain ⟨digit, digits, hint⟩ := number.int.bytes_head
  rw [NumberText.bytes_eq]
  cases number.minus with
  | true => exact ⟨_, _, rfl, Or.inl rfl⟩
  | false =>
    rw [hint]
    exact ⟨_, _, rfl, Or.inr (isDigit_digitByte digit)⟩

theorem number_head (h : c = 0x2D ∨ isDigit c = true) :
    isWs c = false ∧ c ≠ 0x5D ∧ c ≠ 0x66 ∧ c ≠ 0x6E ∧ c ≠ 0x74 ∧ c ≠ 0x7B ∧ c ≠ 0x5B ∧
      c ≠ 0x22 := by
  rcases h with rfl | hdigit
  · decide
  · obtain ⟨digit, rfl⟩ := exists_digit c hdigit
    revert digit
    decide

/-- A value does not begin with the end of an array. -/
theorem ValueText.head (value : ValueText) (rest : Bytes) :
    ∃ c more, dropWs (value.bytes ++ rest) = c :: more ∧ c ≠ 0x5D := by
  cases value with
  | null => exact ⟨_, _, rfl, by decide⟩
  | boolean value => cases value <;> exact ⟨_, _, rfl, by decide⟩
  | number number =>
    obtain ⟨first, more, hbytes, hfirst⟩ := number.bytes_head
    obtain ⟨hws, hend, -⟩ := number_head hfirst
    refine ⟨first, more ++ rest, ?_, hend⟩
    rw [bytes, hbytes, List.cons_append, dropWs_cons hws]
  | string string => exact ⟨_, _, rfl, by decide⟩
  | emptyArray opening closing =>
    rw [bytes, List.append_assoc, dropWs_structural opening (by decide)]
    exact ⟨_, _, rfl, by decide⟩
  | array opening first more closing =>
    rw [bytes, List.append_assoc, dropWs_structural opening (by decide)]
    exact ⟨_, _, rfl, by decide⟩
  | emptyObject opening closing =>
    rw [bytes, List.append_assoc, dropWs_structural opening (by decide)]
    exact ⟨_, _, rfl, by decide⟩
  | object opening key colon first more closing =>
    rw [bytes, List.append_assoc, dropWs_structural opening (by decide)]
    exact ⟨_, _, rfl, by decide⟩

theorem Stops.head (h : Stops view) : ∃ c more, dropWs view = c :: more ∧ c ≠ 0x5D := by
  cases h with
  | number h =>
    obtain ⟨number, exp, rest, hexp, hint, hstops⟩ := h
    exact (ValueText.number number).head rest
  | firstValue opening h =>
    rw [dropWs_structural opening (by decide)]
    exact ⟨_, _, rfl, by decide⟩
  | nextValue opening first more comma hfirst hmore h =>
    rw [dropWs_structural opening (by decide)]
    exact ⟨_, _, rfl, by decide⟩
  | firstMember opening key colon h =>
    rw [dropWs_structural opening (by decide)]
    exact ⟨_, _, rfl, by decide⟩
  | nextMember opening key colon first more comma key' colon' hkeys hfirst hmore h =>
    rw [dropWs_structural opening (by decide)]
    exact ⟨_, _, rfl, by decide⟩

theorem Stops.ne_nil (h : Stops view) : view ≠ [] := by
  obtain ⟨c, more, hhead, -⟩ := h.head
  intro hnil
  rw [hnil] at hhead
  cases hhead

/-! ## Values -/

theorem parseValue_number {n : ℕ} (hview : st.view = c :: rest) (h : c = 0x2D ∨ isDigit c = true) :
    parseValue utf8 (n + 1) st = parseNumber st := by
  obtain ⟨-, -, hf, hn, ht, hobject, harray, hquote⟩ := number_head h
  rw [parseValue, hview]
  simp only [hf, hn, ht, hobject, harray, hquote, if_false]
  split_ifs with hminus hdigit hws
  · rfl
  · rfl
  · exact absurd h (not_or.2 ⟨hminus, hdigit⟩)
  · exact absurd h (not_or.2 ⟨hminus, hdigit⟩)

theorem parseValue_array {n : ℕ} (hview : st.view = 0x5B :: rest) :
    parseValue utf8 (n + 1) st = parseArray (parseValue utf8 n) st := by
  rw [parseValue, hview]
  rfl

theorem parseValue_object {n : ℕ} (hview : st.view = 0x7B :: rest) :
    parseValue utf8 (n + 1) st = parseObject utf8 (parseValue utf8 n) st := by
  rw [parseValue, hview]
  rfl

theorem parseValue_string {n : ℕ} (hview : st.view = 0x22 :: rest) :
    parseValue utf8 (n + 1) st = (parseString utf8 st).andThen fun string st =>
      .ok (.string string, st) := by
  rw [parseValue, hview]
  rfl

theorem parseValue_null (n : ℕ) (rest : Bytes) (loc : SourceLocation) :
    Reads (parseValue utf8 (n + 1) ⟨ascii "null" ++ rest, loc⟩) .null rest :=
  ⟨loc.advanceColBy 4, rfl⟩

theorem parseValue_boolean (n : ℕ) (value : Bool) (rest : Bytes) (loc : SourceLocation) :
    Reads (parseValue utf8 (n + 1) ⟨(if value then ascii "true" else ascii "false") ++ rest, loc⟩)
      (.boolean value) rest := by
  cases value with
  | true => exact ⟨loc.advanceColBy 4, rfl⟩
  | false => exact ⟨loc.advanceColBy 5, rfl⟩

theorem exists_null {value : JsonValue} (h : parseNull st = .ok (value, st')) :
    st.view = ascii "null" ++ st'.view ∧ value = .null := by
  unfold parseNull at h
  split_ifs at h with hnull
  · obtain ⟨rest, hrest⟩ := List.isPrefixOf_iff_prefix.1 hnull
    cases h
    refine ⟨?_, rfl⟩
    rw [JsonParseState.skipBy, ← hrest]
    rfl
  · simp at h

theorem exists_boolean {value : JsonValue} (h : parseBoolean st = .ok (value, st')) :
    ∃ boolean : Bool, st.view = (if boolean then ascii "true" else ascii "false") ++ st'.view ∧
      value = .boolean boolean := by
  unfold parseBoolean at h
  split_ifs at h with hfalse htrue
  · obtain ⟨rest, hrest⟩ := List.isPrefixOf_iff_prefix.1 hfalse
    cases h
    refine ⟨false, ?_, rfl⟩
    rw [JsonParseState.skipBy, ← hrest]
    rfl
  · obtain ⟨rest, hrest⟩ := List.isPrefixOf_iff_prefix.1 htrue
    cases h
    refine ⟨true, ?_, rfl⟩
    rw [JsonParseState.skipBy, ← hrest]
    rfl
  · simp at h

/-! ## Arrays -/

section Nested

variable {parse : JsonParseState → Parse JsonValue} {fuel : ℕ} {array : JsonArray}
  {object : JsonObject}

/-- A state by its bytes. -/
theorem eq_of_view (st : JsonParseState) (h : st.view = view) : st = ⟨view, st.loc⟩ := by
  rw [← h]

/-- Behind an opening character and the whitespace after it. -/
theorem skipWs_open (hc : isWs c = false) (hview : st.view = c :: rest) :
    st.isEof = false ∧ (skipWs st).view = c :: rest ∧
      (skipWs ((skipWs st).skipBy 1)).view = dropWs rest := by
  have hskip : (skipWs st).view = c :: rest := by rw [skipWs_view, hview, dropWs_cons hc]
  refine ⟨by rw [JsonParseState.isEof, hview]; rfl, hskip, ?_⟩
  rw [skipWs_view, JsonParseState.skipBy, hskip, List.drop_one, List.tail_cons]

/-- Behind the opening bracket an array ends, or its first value comes. -/
theorem parseArray_open (parse : JsonParseState → Parse JsonValue)
    (hview : st.view = 0x5B :: rest) :
    (dropWs rest = [] ∧ ∃ error, parseArray parse st = .error (.error error)) ∨
      (∃ more, dropWs rest = 0x5D :: more ∧ Reads (parseArray parse st) (.array []) (dropWs more)) ∨
      ∃ c more loc, dropWs rest = c :: more ∧ c ≠ 0x5D ∧ parseArray parse st =
        (parseArrayValue parse ⟨c :: more, loc⟩ []).andThen fun array st =>
          arrayLoop parse (st.view.length + 1) st array := by
  obtain ⟨heof, hskip, hbehind⟩ := skipWs_open (by decide) hview
  unfold parseArray
  simp only [heof, hskip, Bool.false_eq_true, if_false, ne_eq, not_true_eq_false]
  generalize skipWs ((skipWs st).skipBy 1) = st₁ at hbehind
  cases hrest : dropWs rest with
  | nil =>
    left
    rw [if_pos (by rw [JsonParseState.isEof, hbehind, hrest]; rfl)]
    exact ⟨rfl, _, rfl⟩
  | cons c more =>
    right
    rw [hrest] at hbehind
    have hagain : (skipWs st₁).view = c :: more := by
      rw [skipWs_view, hbehind, dropWs_idem hrest]
    rw [if_neg (by rw [JsonParseState.isEof, hbehind]; simp), eq_of_view _ hagain]
    by_cases hend : c = 0x5D
    · left
      subst hend
      exact ⟨more, rfl, _, rfl⟩
    · right
      refine ⟨c, more, (skipWs st₁).loc, rfl, hend, ?_⟩
      dsimp only
      rw [if_neg hend]

/-- Behind the opening brace an object ends, or its first member comes. -/
theorem parseObject_open (utf8 : Utf8proc) (parse : JsonParseState → Parse JsonValue)
    (hview : st.view = 0x7B :: rest) :
    (dropWs rest = [] ∧ ∃ error, parseObject utf8 parse st = .error (.error error)) ∨
      (∃ more, dropWs rest = 0x7D :: more ∧
        Reads (parseObject utf8 parse st) (.object []) (dropWs more)) ∨
      ∃ c more loc, dropWs rest = c :: more ∧ c ≠ 0x7D ∧ parseObject utf8 parse st =
        (parseObjectMember utf8 parse ⟨c :: more, loc⟩ []).andThen fun object st =>
          objectLoop utf8 parse (st.view.length + 1) st object := by
  obtain ⟨heof, hskip, hbehind⟩ := skipWs_open (by decide) hview
  unfold parseObject
  simp only [heof, hskip, Bool.false_eq_true, if_false, ne_eq, not_true_eq_false]
  generalize skipWs ((skipWs st).skipBy 1) = st₁ at hbehind
  cases hrest : dropWs rest with
  | nil =>
    left
    rw [if_pos (by rw [JsonParseState.isEof, hbehind, hrest]; rfl)]
    exact ⟨rfl, _, rfl⟩
  | cons c more =>
    right
    rw [hrest] at hbehind
    have hagain : (skipWs st₁).view = c :: more := by
      rw [skipWs_view, hbehind, dropWs_idem hrest]
    rw [if_neg (by rw [JsonParseState.isEof, hbehind]; simp), eq_of_view _ hagain]
    by_cases hend : c = 0x7D
    · left
      subst hend
      exact ⟨more, rfl, _, rfl⟩
    · right
      refine ⟨c, more, (skipWs st₁).loc, rfl, hend, ?_⟩
      dsimp only
      rw [if_neg hend]

theorem parseArrayValue_nil (parse : JsonParseState → Parse JsonValue) (hview : st.view = [])
    (array : JsonArray) :
    ∃ error, parseArrayValue parse st array = .error (.error error) := by
  rw [parseArrayValue, if_pos (by rw [JsonParseState.isEof, hview]; rfl)]
  exact ⟨_, rfl⟩

theorem parseArrayValue_andThen {next : JsonArray → JsonParseState → Parse JsonValue}
    (hview : st.view ≠ []) : (parseArrayValue parse st array).andThen next =
      (parse st).andThen fun value st => next (array ++ [value]) st := by
  rw [parseArrayValue, if_neg (by simp [JsonParseState.isEof, hview])]
  rcases parse st with stop | ⟨value, st₁⟩ <;> rfl

/-- One round of the loop over an array: an error, the closing bracket, or a comma and what
stands behind it. -/
theorem arrayLoop_round (parse : JsonParseState → Parse JsonValue) (fuel : ℕ)
    (st : JsonParseState) (array : JsonArray) :
    ((∃ error, arrayLoop parse (fuel + 1) st array = .error (.error error)) ∧
        ∀ more, dropWs st.view ≠ 0x5D :: more ∧ dropWs st.view ≠ 0x2C :: more) ∨
      (∃ more, dropWs st.view = 0x5D :: more ∧
        Reads (arrayLoop parse (fuel + 1) st array) (.array array) (dropWs more)) ∨
      ∃ more loc, dropWs st.view = 0x2C :: more ∧ arrayLoop parse (fuel + 1) st array =
        (parseArrayValue parse ⟨dropWs more, loc⟩ array).andThen fun array st =>
          arrayLoop parse fuel st array := by
  rw [arrayLoop]
  rcases hview : dropWs st.view with _ | ⟨c, more⟩
  · left
    rw [eq_of_view (skipWs st) hview]
    exact ⟨⟨_, rfl⟩, by simp⟩
  rw [eq_of_view (skipWs st) hview]
  dsimp only
  by_cases hend : c = 0x5D
  · right; left
    subst hend
    exact ⟨more, rfl, _, rfl⟩
  by_cases hcomma : c = 0x2C
  · right; right
    subst hcomma
    exact ⟨more, _, rfl, rfl⟩
  · left
    rw [if_neg hend, if_pos hcomma]
    exact ⟨⟨_, rfl⟩, by simp [hend, hcomma]⟩

/-- One round of the loop over an object. -/
theorem objectLoop_round (utf8 : Utf8proc) (parse : JsonParseState → Parse JsonValue) (fuel : ℕ)
    (st : JsonParseState) (object : JsonObject) :
    ((∃ error, objectLoop utf8 parse (fuel + 1) st object = .error (.error error)) ∧
        ∀ more, dropWs st.view ≠ 0x7D :: more ∧ dropWs st.view ≠ 0x2C :: more) ∨
      (∃ more, dropWs st.view = 0x7D :: more ∧
        Reads (objectLoop utf8 parse (fuel + 1) st object) (.object object) (dropWs more)) ∨
      ∃ more loc, dropWs st.view = 0x2C :: more ∧ objectLoop utf8 parse (fuel + 1) st object =
        (parseObjectMember utf8 parse ⟨dropWs more, loc⟩ object).andThen fun object st =>
          objectLoop utf8 parse fuel st object := by
  rw [objectLoop]
  rcases hview : dropWs st.view with _ | ⟨c, more⟩
  · left
    rw [eq_of_view (skipWs st) hview]
    exact ⟨⟨_, rfl⟩, by simp⟩
  rw [eq_of_view (skipWs st) hview]
  dsimp only
  by_cases hend : c = 0x7D
  · right; left
    subst hend
    exact ⟨more, rfl, _, rfl⟩
  by_cases hcomma : c = 0x2C
  · right; right
    subst hcomma
    exact ⟨more, _, rfl, rfl⟩
  · left
    rw [if_neg hend, if_pos hcomma]
    exact ⟨⟨_, rfl⟩, by simp [hend, hcomma]⟩

/-! ## Members -/

theorem addMember_ok {key : JsonString} {value : JsonValue} {object' : JsonObject} :
    addMember key object value st = .ok (object', st') ↔
      key ∉ object.keys ∧ object' = object ++ [(key, value)] ∧ st' = st := by
  unfold addMember
  cases hadd : jsonObjectAddEntryImpl object key value with
  | error message =>
    have hnot : ¬ (key ∉ object.keys ∧ object' = object ++ [(key, value)]) := by
      rw [← jsonObjectAddEntryImpl_ok, hadd]
      simp
    constructor
    · intro h
      simp at h
    · rintro ⟨hnew, hobject, -⟩
      exact absurd ⟨hnew, hobject⟩ hnot
  | ok added =>
    have hadded := jsonObjectAddEntryImpl_ok.1 hadd
    simp only [Except.ok.injEq, Prod.mk.injEq, hadded.1, hadded.2, not_false_eq_true, true_and]
    tauto

theorem addMember_no_fault (key : JsonString) (object : JsonObject) (value : JsonValue)
    (st : JsonParseState) (fault : Fault) :
    addMember key object value st ≠ .error (.fault fault) := by
  unfold addMember
  cases jsonObjectAddEntryImpl object key value <;> simp

theorem parseNameSeparator_reads (colon : Structural) (hrest : rest ≠ []) (loc : SourceLocation) :
    Reads (parseNameSeparator ⟨colon.bytes 0x3A ++ rest, loc⟩) () (dropWs rest) := by
  have hskip : (skipWs ⟨colon.bytes 0x3A ++ rest, loc⟩).view =
      0x3A :: (spaces colon.after ++ rest) := dropWs_structural colon (by decide) rest
  have hbehind : (spaces colon.after ++ rest).isEmpty = false := by simp [hrest]
  rw [parseNameSeparator]
  dsimp only
  rw [eq_of_view _ hskip]
  refine ⟨wsLocation (spaces colon.after ++ rest) ((skipWs
    ⟨colon.bytes 0x3A ++ rest, loc⟩).loc.advanceColBy 1), ?_⟩
  simp only [ne_eq, not_true_eq_false, if_false, JsonParseState.isEof, JsonParseState.skipBy,
    List.drop_one, List.tail_cons, hbehind, Bool.false_eq_true]
  rw [skipWs]
  exact congrArg (fun view => Except.ok ((), JsonParseState.mk view _))
    (dropWs_spaces colon.after rest)

theorem parseNameSeparator_sound {out : Unit} (h : parseNameSeparator st = .ok (out, st')) :
    ∃ colon : Structural, st.view = colon.bytes 0x3A ++ st'.view := by
  rw [parseNameSeparator] at h
  dsimp only at h
  rcases hview : dropWs st.view with _ | ⟨c, more⟩
  · rw [eq_of_view (skipWs st) hview] at h
    simp at h
  · rw [eq_of_view (skipWs st) hview] at h
    dsimp only at h
    split_ifs at h with hcolon heof
    · simp at h
    · simp at h
    · cases h
      obtain ⟨colon, hbytes⟩ := exists_structural hview
      rw [not_not] at hcolon
      subst hcolon
      exact ⟨colon, hbytes⟩

theorem parseNameSeparator_no_fault (st : JsonParseState) (fault : Fault) :
    parseNameSeparator st ≠ .error (.fault fault) := by
  rw [parseNameSeparator]
  dsimp only
  split
  · simp
  · split_ifs <;> simp

/-- Behind a key and a colon the value of the member is parsed. -/
theorem parseObjectMember_text (parse : JsonParseState → Parse JsonValue)
    (hutf8 : utf8.Decodes) (key : StringText) (colon : Structural)
    (hrest : rest ≠ []) (loc : SourceLocation) (object : JsonObject) :
    ∃ loc', parseObjectMember utf8 parse ⟨key.bytes ++ (colon.bytes 0x3A ++ rest), loc⟩ object =
      (parse ⟨dropWs rest, loc'⟩).andThen (addMember key.units object) := by
  obtain ⟨loc₁, hkey⟩ := (parseString_reads hutf8 key (colon.bytes 0x3A ++ rest) loc).andThen
    fun key st => (parseNameSeparator st).andThen fun _ st =>
      (parse st).andThen (addMember key object)
  obtain ⟨loc₂, hcolon⟩ := (parseNameSeparator_reads colon hrest loc₁).andThen
    fun _ st => (parse st).andThen (addMember key.units object)
  refine ⟨loc₂, ?_⟩
  rw [← hcolon, ← hkey]
  rfl

/-- Without an error the bytes begin with a key, a colon and the text that was parsed. -/
theorem exists_member (hutf8 : utf8.Decodes)
    (herror : ∀ error, parseObjectMember utf8 parse st object ≠ .error (.error error)) :
    ∃ (key : StringText) (colon : Structural) (st₁ : JsonParseState),
      st.view = key.bytes ++ (colon.bytes 0x3A ++ st₁.view) ∧
      parseObjectMember utf8 parse st object =
        (parse st₁).andThen (addMember key.units object) := by
  rw [parseObjectMember] at herror ⊢
  split_ifs at herror ⊢ with heof
  · simp [JsonParseState.errorAt] at herror
  rcases hkey : parseString utf8 st with (error | fault) | ⟨key, st₁⟩
  · rw [hkey] at herror
    exact absurd rfl (herror error)
  · exact absurd hkey (parseString_no_fault hutf8 st fault)
  rw [hkey] at herror
  rcases hcolon : parseNameSeparator st₁ with (error | fault) | ⟨⟨⟩, st₂⟩
  · simp only [Parse.andThen, hcolon] at herror
    exact absurd rfl (herror error)
  · exact absurd hcolon (parseNameSeparator_no_fault st₁ fault)
  obtain ⟨text, hview, rfl⟩ := parseString_sound hutf8 hkey
  obtain ⟨colon, hview₁⟩ := parseNameSeparator_sound hcolon
  refine ⟨text, colon, st₂, by rw [hview, hview₁], ?_⟩
  simp only [Parse.andThen, hcolon]

end Nested

end SimpleServer.Json
