import SimpleServer.Proof.JsonSteps

/-!
# What the JSON parser accepts

* `ValueText.reads`: the text of a value with the checks of the parser is read to its value, or
  ends in a fault because of a number.
* `Stops.faults`: the texts at which the parser stops end in a fault.
-/

namespace SimpleServer.Json

variable {utf8 : Utf8proc} {parse : JsonParseState → Parse JsonValue} {rest : Bytes} {n fuel : ℕ}
  {st st' : JsonParseState} {array : JsonArray} {object : JsonObject}

/-- A function has read `value`, and the whitespace behind it or not, or it ends in a fault. -/
def Outcome {α : Type} (result : Parse α) (value : α) (rest : Bytes) (mayStop : Prop) : Prop :=
  (∃ st', result = .ok (value, st') ∧ dropWs st'.view = dropWs rest) ∨ mayStop ∧ Faults result

theorem Reads.outcome {α : Type} {result : Parse α} {value : α} {mayStop : Prop}
    (h : Reads result value (dropWs rest)) : Outcome result value rest mayStop := by
  obtain ⟨loc, hread⟩ := h
  refine Or.inl ⟨_, hread, ?_⟩
  obtain ⟨ws, hws⟩ := exists_spaces rest
  conv_rhs => rw [hws, dropWs_spaces]

theorem Reads.outcome' {α : Type} {result : Parse α} {value : α} {mayStop : Prop}
    (h : Reads result value rest) : Outcome result value rest mayStop := by
  obtain ⟨loc, hread⟩ := h
  exact Or.inl ⟨_, hread, rfl⟩

/-! ## What stands behind a value -/

theorem endsNumber_cons {c : UInt8}
    (h : (isDigit c || c == 0x2E || c == 0x65 || c == 0x45) = false) (rest : Bytes) :
    EndsNumber (c :: rest) := noHead_cons.2 h

/-- Behind a value comes whitespace or a structural character. -/
theorem endsNumber_structural (around : Structural) {c : UInt8}
    (h : (isDigit c || c == 0x2E || c == 0x65 || c == 0x45) = false) (rest : Bytes) :
    EndsNumber (around.bytes c ++ rest) := by
  obtain ⟨before, after⟩ := around
  cases before with
  | nil => exact endsNumber_cons h _
  | cons w before =>
    apply endsNumber_cons
    cases w <;> rfl

theorem MoreValues.endsNumber (more : MoreValues) (hrest : EndsNumber rest) :
    EndsNumber (more.bytes ++ rest) := by
  cases more with
  | nil => exact hrest
  | cons comma value more =>
    rw [bytes, List.append_assoc]
    exact endsNumber_structural comma (by decide) _

theorem MoreMembers.endsNumber (more : MoreMembers) (hrest : EndsNumber rest) :
    EndsNumber (more.bytes ++ rest) := by
  cases more with
  | nil => exact hrest
  | cons comma key colon value more =>
    rw [bytes, List.append_assoc]
    exact endsNumber_structural comma (by decide) _

theorem ValueText.append_ne_nil (value : ValueText) (rest : Bytes) : value.bytes ++ rest ≠ [] := by
  obtain ⟨c, more, hhead, -⟩ := value.head rest
  intro hnil
  rw [hnil] at hhead
  cases hhead

theorem StringText.dropWs_bytes (key : StringText) (rest : Bytes) :
    dropWs (key.bytes ++ rest) = key.bytes ++ rest := dropWs_cons (by decide)

/-! ## The end of a loop -/

theorem arrayLoop_close (closing : Structural) (hfuel : 0 < fuel)
    (hview : dropWs st.view = dropWs (closing.bytes 0x5D ++ rest)) :
    Reads (arrayLoop parse fuel st array) (.array array) (dropWs rest) := by
  obtain ⟨fuel, rfl⟩ : ∃ k, fuel = k + 1 := ⟨fuel - 1, by omega⟩
  rw [dropWs_structural closing (by decide)] at hview
  rcases arrayLoop_round parse fuel st array with
    ⟨-, hnone⟩ | ⟨more, hmore, hround⟩ | ⟨more, loc, hmore, -⟩
  · exact absurd hview (hnone _).1
  · rw [hview] at hmore
    obtain rfl := (List.cons.inj hmore).2
    rwa [dropWs_spaces] at hround
  · rw [hview] at hmore
    exact absurd (List.cons.inj hmore).1 (by decide)

theorem objectLoop_close (closing : Structural) (hfuel : 0 < fuel)
    (hview : dropWs st.view = dropWs (closing.bytes 0x7D ++ rest)) :
    Reads (objectLoop utf8 parse fuel st object) (.object object) (dropWs rest) := by
  obtain ⟨fuel, rfl⟩ : ∃ k, fuel = k + 1 := ⟨fuel - 1, by omega⟩
  rw [dropWs_structural closing (by decide)] at hview
  rcases objectLoop_round utf8 parse fuel st object with
    ⟨-, hnone⟩ | ⟨more, hmore, hround⟩ | ⟨more, loc, hmore, -⟩
  · exact absurd hview (hnone _).1
  · rw [hview] at hmore
    obtain rfl := (List.cons.inj hmore).2
    rwa [dropWs_spaces] at hround
  · rw [hview] at hmore
    exact absurd (List.cons.inj hmore).1 (by decide)

/-! ## One more value or member -/

/-- Behind a comma the loop over an array goes on with a value. -/
theorem arrayLoop_comma (parse : JsonParseState → Parse JsonValue) (fuel : ℕ) (array : JsonArray)
    (comma : Structural) (hrest : dropWs rest ≠ [])
    (hview : dropWs st.view = dropWs (comma.bytes 0x2C ++ rest)) :
    ∃ loc, arrayLoop parse (fuel + 1) st array =
      (parse ⟨dropWs rest, loc⟩).andThen fun value st =>
        arrayLoop parse fuel st (array ++ [value]) := by
  rw [dropWs_structural comma (by decide)] at hview
  rcases arrayLoop_round parse fuel st array with
    ⟨-, hnone⟩ | ⟨more, hmore, -⟩ | ⟨more, loc, hmore, hround⟩
  · exact absurd hview (hnone _).2
  · rw [hview] at hmore
    exact absurd (List.cons.inj hmore).1 (by decide)
  · rw [hview] at hmore
    obtain rfl := (List.cons.inj hmore).2
    rw [dropWs_spaces, parseArrayValue_andThen hrest] at hround
    exact ⟨loc, hround⟩

/-- Behind a comma the loop over an object goes on with a member. -/
theorem objectLoop_comma (hutf8 : utf8.Decodes) (parse : JsonParseState → Parse JsonValue)
    (fuel : ℕ) (object : JsonObject) (comma : Structural) (key : StringText) (colon : Structural)
    (hrest : rest ≠ [])
    (hview : dropWs st.view =
      dropWs (comma.bytes 0x2C ++ (key.bytes ++ (colon.bytes 0x3A ++ rest)))) :
    ∃ loc, objectLoop utf8 parse (fuel + 1) st object =
      ((parse ⟨dropWs rest, loc⟩).andThen (addMember key.units object)).andThen fun object st =>
        objectLoop utf8 parse fuel st object := by
  rw [dropWs_structural comma (by decide)] at hview
  rcases objectLoop_round utf8 parse fuel st object with
    ⟨-, hnone⟩ | ⟨more, hmore, -⟩ | ⟨more, loc, hmore, hround⟩
  · exact absurd hview (hnone _).2
  · rw [hview] at hmore
    exact absurd (List.cons.inj hmore).1 (by decide)
  · rw [hview] at hmore
    obtain rfl := (List.cons.inj hmore).2
    obtain ⟨loc', hmember⟩ :=
      parseObjectMember_text parse hutf8 key colon hrest loc object
    rw [dropWs_spaces, StringText.dropWs_bytes, hmember] at hround
    exact ⟨loc', hround⟩

/-- Behind the opening bracket the first value is read. -/
theorem parseArray_first (parse : JsonParseState → Parse JsonValue) (opening : Structural)
    (hrest : ∃ c more, dropWs rest = c :: more ∧ c ≠ 0x5D)
    (hview : st.view = dropWs (opening.bytes 0x5B ++ rest)) :
    ∃ loc, parseArray parse st = (parse ⟨dropWs rest, loc⟩).andThen fun value st =>
      arrayLoop parse (st.view.length + 1) st [value] := by
  obtain ⟨c, more, hhead, hend⟩ := hrest
  rw [dropWs_structural opening (by decide)] at hview
  have hopen := parseArray_open parse hview
  rw [dropWs_spaces, hhead] at hopen
  rcases hopen with ⟨hnil, -⟩ | ⟨more', hmore, -⟩ | ⟨c', more', loc, hmore, -, hopen⟩
  · cases hnil
  · exact absurd (List.cons.inj hmore).1 hend
  · obtain ⟨rfl, rfl⟩ := List.cons.inj hmore
    rw [parseArrayValue_andThen (by simp)] at hopen
    exact ⟨loc, by rw [hhead, hopen]; rfl⟩

/-- Behind the opening brace the first member is read. -/
theorem parseObject_first (hutf8 : utf8.Decodes) (parse : JsonParseState → Parse JsonValue)
    (opening : Structural) (key : StringText)
    (colon : Structural) (hrest : rest ≠ [])
    (hview : st.view = dropWs (opening.bytes 0x7B ++ (key.bytes ++ (colon.bytes 0x3A ++ rest)))) :
    ∃ loc, parseObject utf8 parse st =
      ((parse ⟨dropWs rest, loc⟩).andThen (addMember key.units [])).andThen fun object st =>
        objectLoop utf8 parse (st.view.length + 1) st object := by
  rw [dropWs_structural opening (by decide)] at hview
  have hopen := parseObject_open utf8 parse hview
  have hhead : key.bytes ++ (colon.bytes 0x3A ++ rest) =
      0x22 :: (StringText.tailBytes key.chars ++ (colon.bytes 0x3A ++ rest)) := rfl
  rw [dropWs_spaces, StringText.dropWs_bytes, hhead] at hopen
  rcases hopen with ⟨hnil, -⟩ | ⟨more, hmore, -⟩ | ⟨c, more, loc, hmore, -, hopen⟩
  · cases hnil
  · exact absurd (List.cons.inj hmore).1 (by decide)
  · obtain ⟨loc', hmember⟩ := parseObjectMember_text parse hutf8 key colon hrest loc []
    rw [← hmore, ← hhead, hmember] at hopen
    exact ⟨loc', hopen⟩

/-! ## Texts of values -/

/-- The value of a member goes into the object when its key is new. -/
theorem Outcome.addMember {result : Parse JsonValue} {value : JsonValue} {key : JsonString}
    {mayStop : Prop} (h : Outcome result value rest mayStop) (hnew : key ∉ object.keys) :
    Outcome (result.andThen (Json.addMember key object)) (object ++ [(key, value)]) rest
      mayStop := by
  rcases h with ⟨st₁, rfl, hrest⟩ | ⟨hmay, hfault⟩
  · exact Or.inl ⟨st₁, addMember_ok.2 ⟨hnew, rfl, rfl⟩, hrest⟩
  · exact Or.inr ⟨hmay, hfault.andThen⟩

/-- Further values take the loop over an array to a state in front of `rest`. -/
def ArrayPasses (parse : JsonParseState → Parse JsonValue) (more : MoreValues) (rest : Bytes) :
    Prop :=
  ∀ fuel st array, (dropWs (more.bytes ++ rest)).length < fuel →
    dropWs st.view = dropWs (more.bytes ++ rest) →
    (∃ fuel' st', arrayLoop parse fuel st array =
        arrayLoop parse fuel' st' (array ++ more.eval .code) ∧
      (dropWs rest).length < fuel' ∧ dropWs st'.view = dropWs rest) ∨
    more.numbers ≠ [] ∧ Faults (arrayLoop parse fuel st array)

/-- Further members with new keys take the loop over an object to a state in front of `rest`. -/
def ObjectPasses (utf8 : Utf8proc) (parse : JsonParseState → Parse JsonValue)
    (more : MoreMembers) (rest : Bytes) : Prop :=
  ∀ fuel st (object : JsonObject), (dropWs (more.bytes ++ rest)).length < fuel →
    dropWs st.view = dropWs (more.bytes ++ rest) →
    (object.keys ++ more.keys.map StringText.units).Nodup →
    (∃ fuel' st', objectLoop utf8 parse fuel st object =
        objectLoop utf8 parse fuel' st' (object ++ more.eval .code) ∧
      (dropWs rest).length < fuel' ∧ dropWs st'.view = dropWs rest) ∨
    more.numbers ≠ [] ∧ Faults (objectLoop utf8 parse fuel st object)

/-- The text of a value in front of `rest` is read. -/
def ValueReads (parse : JsonParseState → Parse JsonValue) (text : ValueText) (rest : Bytes) :
    Prop :=
  ∀ st : JsonParseState, st.view = dropWs (text.bytes ++ rest) →
    Outcome (parse st) (text.eval .code) rest (text.numbers ≠ [])

theorem arrayPasses_cons {comma : Structural} {value : ValueText} {more : MoreValues}
    (hvalue : ValueReads parse value (more.bytes ++ rest)) (hmore : ArrayPasses parse more rest) :
    ArrayPasses parse (.cons comma value more) rest := by
  intro fuel st array hfuel hview
  obtain ⟨fuel, rfl⟩ : ∃ k, fuel = k + 1 := ⟨fuel - 1, by omega⟩
  obtain ⟨c, behind, hhead, -⟩ := value.head (more.bytes ++ rest)
  rw [MoreValues.bytes, List.append_assoc, List.append_assoc] at hview hfuel
  obtain ⟨loc, hcomma⟩ :=
    arrayLoop_comma parse fuel array comma (by rw [hhead]; simp) hview
  rw [hcomma]
  rcases hvalue ⟨dropWs (value.bytes ++ (more.bytes ++ rest)), loc⟩ rfl with
    ⟨st₁, hread, hst₁⟩ | ⟨hmay, hfault⟩
  · have hlength : (dropWs (more.bytes ++ rest)).length < fuel := by
      have hle := dropWs_length_le (more.bytes ++ rest)
      rw [dropWs_structural comma (by decide)] at hfuel
      simp only [List.length_cons, List.length_append] at hfuel hle
      omega
    rw [hread]
    rcases hmore fuel st₁ (array ++ [value.eval .code]) hlength hst₁ with
      ⟨fuel', st', hloop, hfuel', hst'⟩ | ⟨hmay, hfault⟩
    · left
      refine ⟨fuel', st', ?_, hfuel', hst'⟩
      rw [MoreValues.eval, ← List.singleton_append, ← List.append_assoc]
      exact hloop
    · right
      refine ⟨?_, hfault⟩
      simp [MoreValues.numbers, hmay]
  · right
    refine ⟨?_, hfault.andThen⟩
    simp [MoreValues.numbers, hmay]

theorem objectPasses_cons (hutf8 : utf8.Decodes) {comma colon : Structural} {key : StringText}
    {value : ValueText} {more : MoreMembers}
    (hvalue : ValueReads parse value (more.bytes ++ rest))
    (hmore : ObjectPasses utf8 parse more rest) :
    ObjectPasses utf8 parse (.cons comma key colon value more) rest := by
  intro fuel st object hfuel hview hkeys
  obtain ⟨fuel, rfl⟩ : ∃ k, fuel = k + 1 := ⟨fuel - 1, by omega⟩
  rw [MoreMembers.bytes] at hview hfuel
  simp only [List.append_assoc] at hview hfuel
  have hnew : key.units ∉ object.keys := by
    intro hmem
    rw [MoreMembers.keys, List.map_cons] at hkeys
    exact (List.nodup_append'.1 hkeys).2.2 hmem (List.mem_cons_self ..)
  obtain ⟨loc, hcomma⟩ := objectLoop_comma hutf8 parse fuel object comma key colon
    (value.append_ne_nil _) hview
  rw [hcomma]
  rcases (hvalue ⟨dropWs (value.bytes ++ (more.bytes ++ rest)), loc⟩ rfl).addMember hnew with
    ⟨st₁, hread, hst₁⟩ | ⟨hmay, hfault⟩
  · have hlength : (dropWs (more.bytes ++ rest)).length < fuel := by
      have hle := dropWs_length_le (more.bytes ++ rest)
      rw [dropWs_structural comma (by decide)] at hfuel
      simp only [List.length_cons, List.length_append] at hfuel hle
      omega
    have hkeys' : (JsonObject.keys (object ++ [(key.units, value.eval .code)]) ++
        more.keys.map StringText.units).Nodup := by
      rw [JsonObject.keys_append, List.append_assoc]
      exact hkeys
    rw [hread]
    rcases hmore fuel st₁ (object ++ [(key.units, value.eval .code)]) hlength hst₁ hkeys' with
      ⟨fuel', st', hloop, hfuel', hst'⟩ | ⟨hmay, hfault⟩
    · left
      refine ⟨fuel', st', ?_, hfuel', hst'⟩
      have heval : object ++ (MoreMembers.cons comma key colon value more).eval .code =
          object ++ [(key.units, value.eval .code)] ++ more.eval .code := by
        rw [List.append_assoc]
        rfl
      rw [heval]
      exact hloop
    · right
      refine ⟨?_, hfault⟩
      simp [MoreMembers.numbers, hmay]
  · right
    refine ⟨?_, hfault.andThen⟩
    simp [MoreMembers.numbers, hmay]

theorem valueReads_array {opening closing : Structural} {first : ValueText} {more : MoreValues}
    (hfirst : ValueReads (parseValue utf8 n) first
      (more.bytes ++ (closing.bytes 0x5D ++ rest)))
    (hmore : ArrayPasses (parseValue utf8 n) more (closing.bytes 0x5D ++ rest)) :
    ValueReads (parseValue utf8 (n + 1)) (.array opening first more closing) rest := by
  intro st hview
  rw [ValueText.bytes] at hview
  simp only [List.append_assoc] at hview
  have hbracket : st.view = 0x5B :: (spaces opening.after ++ (first.bytes ++ (more.bytes ++
      (closing.bytes 0x5D ++ rest)))) := by
    rw [hview, dropWs_structural opening (by decide)]
  obtain ⟨loc, hparse⟩ := parseArray_first (parseValue utf8 n) opening (first.head _) hview
  rw [parseValue_array hbracket, hparse]
  rcases hfirst ⟨dropWs (first.bytes ++ (more.bytes ++ (closing.bytes 0x5D ++ rest))), loc⟩ rfl with
    ⟨st₁, hread, hst₁⟩ | ⟨hmay, hfault⟩
  · have hlength := dropWs_length_le st₁.view
    rw [hst₁] at hlength
    rw [hread]
    rcases hmore (st₁.view.length + 1) st₁ [first.eval .code] (by omega) hst₁ with
      ⟨fuel', st', hloop, hfuel', hst'⟩ | ⟨hmay, hfault⟩
    · have hclose : Reads (arrayLoop (parseValue utf8 n) fuel' st'
          ([first.eval .code] ++ more.eval .code))
          (.array ([first.eval .code] ++ more.eval .code)) (dropWs rest) :=
        arrayLoop_close closing (by omega) hst'
      rw [← hloop] at hclose
      exact hclose.outcome
    · right
      refine ⟨?_, hfault⟩
      simp [ValueText.numbers, hmay]
  · right
    refine ⟨?_, hfault.andThen⟩
    simp [ValueText.numbers, hmay]

theorem valueReads_object (hutf8 : utf8.Decodes) {opening colon closing : Structural}
    {key : StringText} {first : ValueText} {more : MoreMembers}
    (hkeys : ((key :: more.keys).map StringText.units).Nodup)
    (hfirst : ValueReads (parseValue utf8 n) first
      (more.bytes ++ (closing.bytes 0x7D ++ rest)))
    (hmore : ObjectPasses utf8 (parseValue utf8 n) more (closing.bytes 0x7D ++ rest)) :
    ValueReads (parseValue utf8 (n + 1)) (.object opening key colon first more closing) rest := by
  intro st hview
  rw [ValueText.bytes] at hview
  simp only [List.append_assoc] at hview
  have hbrace : st.view = 0x7B :: (spaces opening.after ++ (key.bytes ++ (colon.bytes 0x3A ++
      (first.bytes ++ (more.bytes ++ (closing.bytes 0x7D ++ rest)))))) := by
    rw [hview, dropWs_structural opening (by decide)]
  obtain ⟨loc, hparse⟩ := parseObject_first hutf8 (parseValue utf8 n) opening key colon
    (first.append_ne_nil _) hview
  rw [parseValue_object hbrace, hparse]
  have hnew : key.units ∉ JsonObject.keys [] := by simp [JsonObject.keys]
  rcases (hfirst ⟨dropWs (first.bytes ++ (more.bytes ++ (closing.bytes 0x7D ++ rest))), loc⟩
    rfl).addMember hnew with ⟨st₁, hread, hst₁⟩ | ⟨hmay, hfault⟩
  · have hlength := dropWs_length_le st₁.view
    rw [hst₁] at hlength
    rw [hread]
    rcases hmore (st₁.view.length + 1) st₁ [(key.units, first.eval .code)] (by omega) hst₁
      hkeys with
      ⟨fuel', st', hloop, hfuel', hst'⟩ | ⟨hmay, hfault⟩
    · have hclose : Reads (objectLoop utf8 (parseValue utf8 n) fuel' st'
          ([(key.units, first.eval .code)] ++ more.eval .code))
          (.object ([(key.units, first.eval .code)] ++ more.eval .code)) (dropWs rest) :=
        objectLoop_close closing (by omega) hst'
      rw [← hloop] at hclose
      exact hclose.outcome
    · right
      refine ⟨?_, hfault⟩
      simp [ValueText.numbers, hmay]
  · right
    refine ⟨?_, hfault.andThen⟩
    simp [ValueText.numbers, hmay]

theorem valueReads_emptyArray (opening closing : Structural) :
    ValueReads (parseValue utf8 (n + 1)) (.emptyArray opening closing) rest := by
  intro st hview
  rw [ValueText.bytes, List.append_assoc, dropWs_structural opening (by decide)] at hview
  rw [parseValue_array hview]
  have hopen := parseArray_open (parseValue utf8 n) hview
  rw [dropWs_spaces, dropWs_structural closing (by decide)] at hopen
  rcases hopen with ⟨hnil, -⟩ | ⟨more, hmore, hread⟩ | ⟨c, more, loc, hmore, hend, -⟩
  · cases hnil
  · obtain rfl := (List.cons.inj hmore).2
    rw [dropWs_spaces] at hread
    exact hread.outcome
  · exact absurd (List.cons.inj hmore).1.symm hend

theorem valueReads_emptyObject (opening closing : Structural) :
    ValueReads (parseValue utf8 (n + 1)) (.emptyObject opening closing) rest := by
  intro st hview
  rw [ValueText.bytes, List.append_assoc, dropWs_structural opening (by decide)] at hview
  rw [parseValue_object hview]
  have hopen := parseObject_open utf8 (parseValue utf8 n) hview
  rw [dropWs_spaces, dropWs_structural closing (by decide)] at hopen
  rcases hopen with ⟨hnil, -⟩ | ⟨more, hmore, hread⟩ | ⟨c, more, loc, hmore, hend, -⟩
  · cases hnil
  · obtain rfl := (List.cons.inj hmore).2
    rw [dropWs_spaces] at hread
    exact hread.outcome
  · exact absurd (List.cons.inj hmore).1.symm hend

theorem valueReads_number {number : NumberText} (hint : number.int.Unseen)
    (hrest : EndsNumber rest) :
    ValueReads (parseValue utf8 (n + 1)) (.number number) rest := by
  intro st hview
  obtain ⟨first, more, hbytes, hfirst⟩ := number.bytes_head
  have hview' : st.view = first :: (more ++ rest) := by
    rw [hview, ValueText.bytes, hbytes, List.cons_append, dropWs_cons (number_head hfirst).1]
  rw [parseValue_number hview' hfirst, eq_of_view st hview', ← List.cons_append, ← hbytes]
  rcases parseNumber_reads hint hrest st.loc with hread | hfault
  · exact hread.outcome'
  · exact Or.inr ⟨by simp [ValueText.numbers], hfault⟩

theorem valueReads_string (hutf8 : utf8.Decodes) (string : StringText) :
    ValueReads (parseValue utf8 (n + 1)) (.string string) rest := by
  intro st hview
  rw [ValueText.bytes, StringText.dropWs_bytes] at hview
  have hquote : st.view = 0x22 :: (StringText.tailBytes string.chars ++ rest) := hview
  rw [parseValue_string hquote, eq_of_view st hview]
  obtain ⟨loc, hread⟩ := (parseString_reads hutf8 string rest st.loc).andThen
    fun string st => .ok (JsonValue.string string, st)
  rw [hread]
  exact Or.inl ⟨_, rfl, rfl⟩

theorem structural_length (around : Structural) (c : UInt8) :
    (around.bytes c).length = around.before.length + (around.after.length + 1) := by
  simp [Structural.bytes, spaces]

mutual

/-- **The text of a value that passes the checks is read, or a number in it ends in a fault.** -/
theorem ValueText.reads (hutf8 : utf8.Decodes) : ∀ (text : ValueText), text.Accepted →
    ∀ rest, EndsNumber rest → ∀ n, (dropWs (text.bytes ++ rest)).length < n →
      ValueReads (parseValue utf8 n) text rest
  | text, haccepted, rest, hrest, n, hn => by
    obtain ⟨n, rfl⟩ : ∃ k, n = k + 1 := ⟨n - 1, by omega⟩
    match text with
    | .null =>
      intro st hview
      have hview' : st.view = ascii "null" ++ rest := hview
      rw [eq_of_view st hview']
      exact (parseValue_null n rest st.loc).outcome'
    | .boolean value =>
      intro st hview
      have hview' : st.view = (if value then ascii "true" else ascii "false") ++ rest := by
        rw [hview]
        cases value <;> rfl
      rw [eq_of_view st hview']
      exact (parseValue_boolean n value rest st.loc).outcome'
    | .number number =>
      exact valueReads_number (haccepted.1 number (by simp [ValueText.numbers])) hrest
    | .string string => exact valueReads_string hutf8 string
    | .emptyArray opening closing => exact valueReads_emptyArray opening closing
    | .array opening first more closing =>
      obtain ⟨hfirst, hmore⟩ := ValueText.accepted_array.1 haccepted
      rw [ValueText.bytes, List.append_assoc, dropWs_structural opening (by decide)] at hn
      simp only [List.length_cons, List.length_append, structural_length] at hn
      have hclosing : EndsNumber (closing.bytes 0x5D ++ rest) :=
        endsNumber_structural closing (by decide) rest
      apply valueReads_array
      · apply ValueText.reads hutf8 first hfirst _ (more.endsNumber hclosing)
        apply (dropWs_length_le _).trans_lt
        simp only [List.length_append, structural_length]
        omega
      · apply MoreValues.passes hutf8 more hmore _ hclosing
        simp only [List.length_append, structural_length]
        omega
    | .emptyObject opening closing => exact valueReads_emptyObject opening closing
    | .object opening key colon first more closing =>
      obtain ⟨hkeys, hfirst, hmore⟩ := ValueText.accepted_object.1 haccepted
      rw [ValueText.bytes, List.append_assoc, dropWs_structural opening (by decide)] at hn
      simp only [List.length_cons, List.length_append, structural_length] at hn
      have hclosing : EndsNumber (closing.bytes 0x7D ++ rest) :=
        endsNumber_structural closing (by decide) rest
      apply valueReads_object hutf8 hkeys
      · apply ValueText.reads hutf8 first hfirst _ (more.endsNumber hclosing)
        apply (dropWs_length_le _).trans_lt
        simp only [List.length_append, structural_length]
        omega
      · apply MoreMembers.passes hutf8 more hmore _ hclosing
        simp only [List.length_append, structural_length]
        omega

theorem MoreValues.passes (hutf8 : utf8.Decodes) : ∀ (more : MoreValues), more.Accepted →
    ∀ rest, EndsNumber rest → ∀ n, (more.bytes ++ rest).length < n →
      ArrayPasses (parseValue utf8 n) more rest
  | .nil, _, rest, _, n, _ => by
    intro fuel st array hfuel hview
    exact Or.inl ⟨fuel, st, by rw [MoreValues.eval, List.append_nil], hfuel, hview⟩
  | .cons comma value more, haccepted, rest, hrest, n, hn => by
    obtain ⟨hvalue, hmore⟩ := MoreValues.accepted_cons.1 haccepted
    rw [MoreValues.bytes] at hn
    simp only [List.length_append, structural_length] at hn
    apply arrayPasses_cons
    · apply ValueText.reads hutf8 value hvalue _ (more.endsNumber hrest)
      apply (dropWs_length_le _).trans_lt
      simp only [List.length_append]
      omega
    · apply MoreValues.passes hutf8 more hmore _ hrest
      simp only [List.length_append]
      omega

theorem MoreMembers.passes (hutf8 : utf8.Decodes) : ∀ (more : MoreMembers), more.Accepted →
    ∀ rest, EndsNumber rest → ∀ n, (more.bytes ++ rest).length < n →
      ObjectPasses utf8 (parseValue utf8 n) more rest
  | .nil, _, rest, _, n, _ => by
    intro fuel st object hfuel hview _
    exact Or.inl ⟨fuel, st, by rw [MoreMembers.eval, List.append_nil], hfuel, hview⟩
  | .cons comma key colon value more, haccepted, rest, hrest, n, hn => by
    obtain ⟨hvalue, hmore⟩ := MoreMembers.accepted_cons.1 haccepted
    rw [MoreMembers.bytes] at hn
    simp only [List.length_append, structural_length] at hn
    apply objectPasses_cons hutf8
    · apply ValueText.reads hutf8 value hvalue _ (more.endsNumber hrest)
      apply (dropWs_length_le _).trans_lt
      simp only [List.length_append]
      omega
    · apply MoreMembers.passes hutf8 more hmore _ hrest
      simp only [List.length_append]
      omega

end

/-! ## Texts that stop -/

/-- Values are passed, and the one behind the comma ends in a fault. -/
theorem arrayLoop_faults {more : MoreValues} {comma : Structural} {view : Bytes}
    (hmore : ArrayPasses parse more (comma.bytes 0x2C ++ view)) (hne : dropWs view ≠ [])
    (hview : dropWs st.view = dropWs (more.bytes ++ (comma.bytes 0x2C ++ view)))
    (hfuel : (dropWs st.view).length < fuel) (hparse : ∀ loc, Faults (parse ⟨dropWs view, loc⟩)) :
    Faults (arrayLoop parse fuel st array) := by
  rcases hmore fuel st array (by rw [← hview]; exact hfuel) hview with
    ⟨fuel', st', hloop, hfuel', hst'⟩ | ⟨-, hfault⟩
  · obtain ⟨fuel', rfl⟩ : ∃ k, fuel' = k + 1 := ⟨fuel' - 1, by omega⟩
    obtain ⟨loc, hcomma⟩ :=
      arrayLoop_comma parse fuel' (array ++ more.eval .code) comma hne hst'
    rw [hloop, hcomma]
    exact (hparse loc).andThen
  · exact hfault

theorem objectLoop_faults (hutf8 : utf8.Decodes) {more : MoreMembers} {comma : Structural}
    {key : StringText} {colon : Structural} {view : Bytes}
    (hmore : ObjectPasses utf8 parse more
      (comma.bytes 0x2C ++ (key.bytes ++ (colon.bytes 0x3A ++ view)))) (hne : view ≠ [])
    (hview : dropWs st.view =
      dropWs (more.bytes ++ (comma.bytes 0x2C ++ (key.bytes ++ (colon.bytes 0x3A ++ view)))))
    (hfuel : (dropWs st.view).length < fuel)
    (hkeys : (object.keys ++ more.keys.map StringText.units).Nodup)
    (hparse : ∀ loc, Faults (parse ⟨dropWs view, loc⟩)) :
    Faults (objectLoop utf8 parse fuel st object) := by
  rcases hmore fuel st object (by rw [← hview]; exact hfuel) hview hkeys with
    ⟨fuel', st', hloop, hfuel', hst'⟩ | ⟨-, hfault⟩
  · obtain ⟨fuel', rfl⟩ : ∃ k, fuel' = k + 1 := ⟨fuel' - 1, by omega⟩
    obtain ⟨loc, hcomma⟩ :=
      objectLoop_comma hutf8 parse fuel' (object ++ more.eval .code) comma key colon hne hst'
    rw [hloop, hcomma]
    exact (hparse loc).andThen.andThen
  · exact hfault

/-- **At a number that stops it, the parser ends in a fault.** -/
theorem Stops.faults (hutf8 : utf8.Decodes) {view : Bytes} (h : Stops view) :
    ∀ n, (dropWs view).length < n → ∀ st : JsonParseState, st.view = dropWs view →
      Faults (parseValue utf8 n st) := by
  induction h with
  | number h =>
    intro n hn st hview
    obtain ⟨n, rfl⟩ : ∃ k, n = k + 1 := ⟨n - 1, by omega⟩
    obtain ⟨number, exp, rest, hexp, hint, hstops⟩ := h
    obtain ⟨first, more, hbytes, hfirst⟩ := number.bytes_head
    have hview' : st.view = first :: (more ++ rest) := by
      rw [hview, hbytes, List.cons_append, dropWs_cons (number_head hfirst).1]
    rw [parseValue_number hview' hfirst, eq_of_view st hview', ← List.cons_append, ← hbytes]
    exact parseNumber_stops (.exponent number exp rest hexp hint hstops) st.loc
  | @firstValue opening view h ih =>
    intro n hn st hview
    obtain ⟨n, rfl⟩ : ∃ k, n = k + 1 := ⟨n - 1, by omega⟩
    have hbracket := hview
    rw [dropWs_structural opening (by decide)] at hbracket
    rw [dropWs_structural opening (by decide)] at hn
    simp only [List.length_cons, List.length_append] at hn
    have hle := dropWs_length_le view
    obtain ⟨loc, hparse⟩ := parseArray_first (parseValue utf8 n) opening h.head hview
    rw [parseValue_array hbracket, hparse]
    exact (ih n (by omega) ⟨dropWs view, loc⟩ rfl).andThen
  | @nextValue opening first more comma view hfirst hmore h ih =>
    intro n hn st hview
    obtain ⟨n, rfl⟩ : ∃ k, n = k + 1 := ⟨n - 1, by omega⟩
    have hbracket := hview
    rw [dropWs_structural opening (by decide)] at hbracket
    rw [dropWs_structural opening (by decide)] at hn
    simp only [List.length_cons, List.length_append, structural_length] at hn
    have hle := dropWs_length_le view
    have hcomma : EndsNumber (comma.bytes 0x2C ++ view) :=
      endsNumber_structural comma (by decide) view
    obtain ⟨loc, hparse⟩ :=
      parseArray_first (parseValue utf8 n) opening (first.head _) hview
    rw [parseValue_array hbracket, hparse]
    have hreads := ValueText.reads hutf8 first hfirst _ (more.endsNumber hcomma) n (by
      apply (dropWs_length_le _).trans_lt
      simp only [List.length_append, structural_length]
      omega)
    have hpasses := MoreValues.passes hutf8 more hmore _ hcomma n (by
      simp only [List.length_append, structural_length]
      omega)
    obtain ⟨c, behind, hhead, -⟩ := h.head
    rcases hreads ⟨dropWs (first.bytes ++ (more.bytes ++ (comma.bytes 0x2C ++ view))), loc⟩ rfl with
      ⟨st₁, hread, hst₁⟩ | ⟨-, hfault⟩
    · rw [hread]
      exact arrayLoop_faults hpasses (by rw [hhead]; simp) hst₁
        (Nat.lt_succ_of_le (dropWs_length_le st₁.view))
        fun loc => ih n (by omega) ⟨dropWs view, loc⟩ rfl
    · exact hfault.andThen
  | @firstMember opening key colon view h ih =>
    intro n hn st hview
    obtain ⟨n, rfl⟩ : ∃ k, n = k + 1 := ⟨n - 1, by omega⟩
    have hbrace := hview
    rw [dropWs_structural opening (by decide)] at hbrace
    rw [dropWs_structural opening (by decide)] at hn
    simp only [List.length_cons, List.length_append, structural_length] at hn
    have hle := dropWs_length_le view
    obtain ⟨loc, hparse⟩ :=
      parseObject_first hutf8 (parseValue utf8 n) opening key colon h.ne_nil hview
    rw [parseValue_object hbrace, hparse]
    exact (ih n (by omega) ⟨dropWs view, loc⟩ rfl).andThen.andThen
  | @nextMember opening key colon first more comma key' colon' view hkeys hfirst hmore h ih =>
    intro n hn st hview
    obtain ⟨n, rfl⟩ : ∃ k, n = k + 1 := ⟨n - 1, by omega⟩
    have hbrace := hview
    rw [dropWs_structural opening (by decide)] at hbrace
    rw [dropWs_structural opening (by decide)] at hn
    simp only [List.length_cons, List.length_append, structural_length] at hn
    have hle := dropWs_length_le view
    have hcomma : EndsNumber (comma.bytes 0x2C ++ (key'.bytes ++ (colon'.bytes 0x3A ++ view))) :=
      endsNumber_structural comma (by decide) _
    obtain ⟨loc, hparse⟩ := parseObject_first hutf8 (parseValue utf8 n) opening key colon
      (first.append_ne_nil _) hview
    rw [parseValue_object hbrace, hparse]
    have hreads := ValueText.reads hutf8 first hfirst _ (more.endsNumber hcomma) n (by
      apply (dropWs_length_le _).trans_lt
      simp only [List.length_append, structural_length]
      omega)
    have hpasses := MoreMembers.passes hutf8 more hmore _ hcomma n (by
      simp only [List.length_append, structural_length]
      omega)
    have hnew : key.units ∉ JsonObject.keys [] := by simp [JsonObject.keys]
    rcases (hreads ⟨dropWs (first.bytes ++ (more.bytes ++ (comma.bytes 0x2C ++ (key'.bytes ++
      (colon'.bytes 0x3A ++ view))))), loc⟩ rfl).addMember hnew with
      ⟨st₁, hread, hst₁⟩ | ⟨-, hfault⟩
    · rw [hread]
      exact objectLoop_faults hutf8 hpasses h.ne_nil hst₁
        (Nat.lt_succ_of_le (dropWs_length_le st₁.view)) hkeys
        fun loc => ih n (by omega) ⟨dropWs view, loc⟩ rfl
    · exact hfault.andThen

end SimpleServer.Json
