import SimpleServer.Proof.JsonSteps

/-!
# What the JSON parser has read

* `parseValue_sound`: with enough fuel a result is the value of a text the parser has read, and
  a fault comes only where the parser stops.
-/

namespace SimpleServer.Json

variable {utf8 : Utf8proc} {parse : JsonParseState → Parse JsonValue} {n fuel : ℕ}
  {st st' : JsonParseState} {array : JsonArray} {object : JsonObject} {value : JsonValue}

/-- What a parser of values says about its bytes. -/
structure SoundAt (parse : JsonParseState → Parse JsonValue) (st : JsonParseState) : Prop where
  ok : ∀ value st', parse st = .ok (value, st') → ∃ text : ValueText,
    st.view = text.bytes ++ st'.view ∧ text.Accepted ∧ value = text.eval .code
  fault : ∀ fault, parse st = .error (.fault fault) → Stops st.view

theorem SoundAt.congr {parse' : JsonParseState → Parse JsonValue} (h : SoundAt parse st)
    (heq : parse' st = parse st) : SoundAt parse' st := by
  constructor
  · intro value st' hok
    exact h.ok value st' (by rw [← heq, hok])
  · intro fault hfault
    exact h.fault fault (by rw [← heq, hfault])

/-- A value that was read is that of a text in front of what is left. -/
theorem SoundAt.read (h : SoundAt parse st) (hok : parse st = .ok (value, st')) :
    ∃ text : ValueText, st.view = text.bytes ++ st'.view ∧ st'.view.length ≤ st.view.length ∧
      text.Accepted ∧ value = text.eval .code := by
  obtain ⟨text, htext, haccepted, heval⟩ := h.ok value st' hok
  refine ⟨text, htext, ?_, haccepted, heval⟩
  rw [htext, List.length_append]
  exact Nat.le_add_left _ _

theorem ValueText.accepted_leaf {text : ValueText} (hnumbers : text.numbers = [])
    (hkeys : text.DistinctKeys .code) : text.Accepted := by
  refine ⟨?_, hkeys⟩
  rw [hnumbers]
  intro number h
  cases h

theorem MoreValues.accepted_nil : MoreValues.nil.Accepted := by
  constructor
  · intro number h
    cases h
  · trivial

theorem MoreMembers.accepted_nil : MoreMembers.nil.Accepted := by
  constructor
  · intro number h
    cases h
  · trivial

theorem structural_length_pos (around : Structural) (c : UInt8) : 0 < (around.bytes c).length := by
  simp [Structural.bytes]

/-- A comma, and what is left behind it. -/
theorem exists_comma {behind : Bytes} (hview : dropWs st.view = 0x2C :: behind) :
    ∃ comma : Structural, st.view = comma.bytes 0x2C ++ dropWs behind ∧
      (dropWs behind).length < st.view.length := by
  obtain ⟨comma, hbytes⟩ := exists_structural hview
  have hpos := structural_length_pos comma 0x2C
  refine ⟨comma, hbytes, ?_⟩
  rw [hbytes, List.length_append]
  omega

/-! ## Arrays -/

/-- Behind a comma there is a value to read, unless that is an error. -/
theorem parseArrayValue_behind {next : JsonArray → JsonParseState → Parse JsonValue}
    {result : Parse JsonValue} (hresult : ∀ error, result ≠ .error (.error error))
    (h : result = (parseArrayValue parse st array).andThen next) :
    result = (parse st).andThen fun value st => next (array ++ [value]) st := by
  rw [h, parseArrayValue_andThen]
  intro hnil
  obtain ⟨error, herror⟩ := parseArrayValue_nil parse hnil array
  rw [herror] at h
  exact hresult error h

/-- The loop over an array has read further values and the closing bracket. -/
theorem arrayLoop_ok (hparse : ∀ st, st.view.length < n → SoundAt parse st)
    (hn : st.view.length < n) (hfuel : st.view.length < fuel)
    (h : arrayLoop parse fuel st array = .ok (value, st')) :
    ∃ (more : MoreValues) (closing : Structural),
      st.view = more.bytes ++ (closing.bytes 0x5D ++ st'.view) ∧ more.Accepted ∧
        value = .array (array ++ more.eval .code) := by
  induction fuel generalizing st array with
  | zero => omega
  | succ fuel ih =>
    rcases arrayLoop_round parse fuel st array with
      ⟨⟨error, hround⟩, -⟩ | ⟨behind, hview, loc, hround⟩ | ⟨behind, loc, hview, hround⟩
    · rw [h] at hround
      cases hround
    · rw [h] at hround
      cases hround
      obtain ⟨closing, hbytes⟩ := exists_structural hview
      refine ⟨.nil, closing, hbytes, MoreValues.accepted_nil, ?_⟩
      rw [MoreValues.eval, List.append_nil]
    · obtain ⟨comma, hbytes, hless⟩ := exists_comma hview
      rw [h] at hround
      have hread := parseArrayValue_behind (by simp) hround
      obtain ⟨first, st₁, hfirst, hloop⟩ := Parse.andThen_eq_ok.1 hread.symm
      obtain ⟨text, htext, hle, haccepted, rfl⟩ :=
        (hparse ⟨dropWs behind, loc⟩ (by dsimp only; omega)).read hfirst
      dsimp only at hle
      obtain ⟨more, closing, hview₁, hmore, rfl⟩ := ih (by omega) (by omega) hloop
      refine ⟨.cons comma text more, closing, ?_, MoreValues.accepted_cons.2 ⟨haccepted, hmore⟩, ?_⟩
      · dsimp only at htext
        rw [hbytes, htext, hview₁, MoreValues.bytes, List.append_assoc, List.append_assoc]
      · rw [MoreValues.eval, List.append_assoc, List.singleton_append]

/-- A fault in the loop comes from a value behind further values. -/
theorem arrayLoop_fault (hparse : ∀ st, st.view.length < n → SoundAt parse st)
    (hn : st.view.length < n) (hfuel : st.view.length < fuel) {fault : Fault}
    (h : arrayLoop parse fuel st array = .error (.fault fault)) :
    ∃ (more : MoreValues) (comma : Structural) (view : Bytes),
      st.view = more.bytes ++ (comma.bytes 0x2C ++ view) ∧ more.Accepted ∧ Stops view := by
  induction fuel generalizing st array with
  | zero => omega
  | succ fuel ih =>
    rcases arrayLoop_round parse fuel st array with
      ⟨⟨error, hround⟩, -⟩ | ⟨behind, hview, loc, hround⟩ | ⟨behind, loc, hview, hround⟩
    · rw [h] at hround
      cases hround
    · rw [h] at hround
      cases hround
    · obtain ⟨comma, hbytes, hless⟩ := exists_comma hview
      rw [h] at hround
      have hread := parseArrayValue_behind (by simp) hround
      have hsound := hparse ⟨dropWs behind, loc⟩ (by dsimp only; omega)
      rcases Parse.andThen_eq_fault.1 hread.symm with hstop | ⟨first, st₁, hfirst, hloop⟩
      · exact ⟨.nil, comma, dropWs behind, hbytes, MoreValues.accepted_nil, hsound.fault _ hstop⟩
      · obtain ⟨text, htext, hle, haccepted, rfl⟩ := hsound.read hfirst
        dsimp only at htext hle
        obtain ⟨more, comma', view, hview₁, hmore, hstops⟩ := ih (by omega) (by omega) hloop
        refine ⟨.cons comma text more, comma', view, ?_,
          MoreValues.accepted_cons.2 ⟨haccepted, hmore⟩, hstops⟩
        rw [hbytes, htext, hview₁, MoreValues.bytes, List.append_assoc, List.append_assoc]

theorem parseArray_sound (hparse : ∀ st, st.view.length < n → SoundAt parse st)
    (hn : st.view.length ≤ n) {rest : Bytes} (hview : st.view = 0x5B :: rest) :
    SoundAt (parseArray parse) st := by
  have hrest := dropWs_length_le rest
  have hlength : st.view.length = rest.length + 1 := by rw [hview, List.length_cons]
  have hdrop : dropWs st.view = 0x5B :: rest := by rw [hview, dropWs_cons (by decide)]
  obtain ⟨opening, hopening⟩ := exists_structural hdrop
  rcases parseArray_open parse hview with
    ⟨-, error, hopen⟩ | ⟨more, hmore, loc, hopen⟩ | ⟨c, more, loc, hmore, -, hopen⟩
  · constructor
    · intro value st' h
      rw [h] at hopen
      cases hopen
    · intro fault h
      rw [h] at hopen
      cases hopen
  · have hend : dropWs (dropWs rest) = 0x5D :: more := by rw [hmore, dropWs_idem hmore]
    obtain ⟨closing, hclosing⟩ := exists_structural hend
    constructor
    · intro value st' h
      rw [h] at hopen
      cases hopen
      refine ⟨.emptyArray opening closing, ?_, ValueText.accepted_leaf rfl trivial, rfl⟩
      rw [hopening, hclosing, ValueText.bytes, List.append_assoc]
    · intro fault h
      rw [h] at hopen
      cases hopen
  · rw [parseArrayValue_andThen (by simp)] at hopen
    have hsound := hparse ⟨c :: more, loc⟩ (by rw [← hmore]; dsimp only; omega)
    constructor
    · intro value st' h
      rw [h] at hopen
      obtain ⟨first, st₁, hfirst, hloop⟩ := Parse.andThen_eq_ok.1 hopen.symm
      obtain ⟨text, htext, hle, haccepted, rfl⟩ := hsound.read hfirst
      dsimp only at htext hle
      rw [← hmore] at hle
      obtain ⟨values, closing, hview₁, hvalues, rfl⟩ :=
        arrayLoop_ok hparse (by omega) (Nat.lt_succ_self _) hloop
      refine ⟨.array opening text values closing, ?_,
        ValueText.accepted_array.2 ⟨haccepted, hvalues⟩, rfl⟩
      rw [hopening, hmore, htext, hview₁, ValueText.bytes]
      simp only [List.append_assoc]
    · intro fault h
      rw [h] at hopen
      rcases Parse.andThen_eq_fault.1 hopen.symm with hstop | ⟨first, st₁, hfirst, hloop⟩
      · rw [hopening, hmore]
        exact .firstValue opening (hsound.fault _ hstop)
      · obtain ⟨text, htext, hle, haccepted, rfl⟩ := hsound.read hfirst
        dsimp only at htext hle
        rw [← hmore] at hle
        obtain ⟨values, comma, view, hview₁, hvalues, hstops⟩ :=
          arrayLoop_fault hparse (by omega) (Nat.lt_succ_self _) hloop
        rw [hopening, hmore, htext, hview₁]
        exact .nextValue opening text values comma haccepted hvalues hstops

/-! ## Objects -/

theorem parseObjectMember_ok (hutf8 : utf8.Decodes)
    (hparse : ∀ st, st.view.length < n → SoundAt parse st) (hn : st.view.length < n)
    {object' : JsonObject} (h : parseObjectMember utf8 parse st object = .ok (object', st')) :
    ∃ (key : StringText) (colon : Structural) (text : ValueText),
      st.view = key.bytes ++ (colon.bytes 0x3A ++ (text.bytes ++ st'.view)) ∧
        st'.view.length ≤ st.view.length ∧ text.Accepted ∧
        (object.keys.Nodup → object'.keys.Nodup) ∧
        object' = object ++ [(key.units, text.eval .code)] := by
  have herror : ∀ error, parseObjectMember utf8 parse st object ≠ .error (.error error) := by
    simp [h]
  obtain ⟨key, colon, st₁, hview, hmember⟩ := exists_member hutf8 herror
  rw [h] at hmember
  obtain ⟨value, st₂, hvalue, hadd⟩ := Parse.andThen_eq_ok.1 hmember.symm
  obtain ⟨hnew, rfl, rfl⟩ := addMember_ok.1 hadd
  have hlength : st₁.view.length ≤ st.view.length := by
    rw [hview, List.length_append, List.length_append]
    omega
  obtain ⟨text, htext, hle, haccepted, rfl⟩ := (hparse st₁ (by omega)).read hvalue
  exact ⟨key, colon, text, by rw [hview, htext], hle.trans hlength, haccepted,
    JsonObject.nodup_append hnew, rfl⟩

theorem parseObjectMember_fault (hutf8 : utf8.Decodes)
    (hparse : ∀ st, st.view.length < n → SoundAt parse st) (hn : st.view.length < n)
    {fault : Fault} (h : parseObjectMember utf8 parse st object = .error (.fault fault)) :
    ∃ (key : StringText) (colon : Structural) (view : Bytes),
      st.view = key.bytes ++ (colon.bytes 0x3A ++ view) ∧ Stops view := by
  have herror : ∀ error, parseObjectMember utf8 parse st object ≠ .error (.error error) := by
    simp [h]
  obtain ⟨key, colon, st₁, hview, hmember⟩ := exists_member hutf8 herror
  rw [h] at hmember
  have hlength : st₁.view.length ≤ st.view.length := by
    rw [hview, List.length_append, List.length_append]
    omega
  rcases Parse.andThen_eq_fault.1 hmember.symm with hstop | ⟨value, st₂, -, hadd⟩
  · exact ⟨key, colon, st₁.view, hview, (hparse st₁ (by omega)).fault _ hstop⟩
  · exact absurd hadd (addMember_no_fault key.units object value st₂ fault)

/-- The loop over an object has read further members with new keys and the closing brace. -/
theorem objectLoop_ok (hutf8 : utf8.Decodes)
    (hparse : ∀ st, st.view.length < n → SoundAt parse st)
    (hn : st.view.length < n) (hfuel : st.view.length < fuel) (hkeys : object.keys.Nodup)
    (h : objectLoop utf8 parse fuel st object = .ok (value, st')) :
    ∃ (more : MoreMembers) (closing : Structural),
      st.view = more.bytes ++ (closing.bytes 0x7D ++ st'.view) ∧ more.Accepted ∧
        (object.keys ++ more.keys.map StringText.units).Nodup ∧
        value = .object (object ++ more.eval .code) := by
  induction fuel generalizing st object with
  | zero => omega
  | succ fuel ih =>
    rcases objectLoop_round utf8 parse fuel st object with
      ⟨⟨error, hround⟩, -⟩ | ⟨behind, hview, loc, hround⟩ | ⟨behind, loc, hview, hround⟩
    · rw [h] at hround
      cases hround
    · rw [h] at hround
      cases hround
      obtain ⟨closing, hbytes⟩ := exists_structural hview
      refine ⟨.nil, closing, hbytes, MoreMembers.accepted_nil, ?_, ?_⟩
      · simpa [MoreMembers.keys] using hkeys
      · rw [MoreMembers.eval, List.append_nil]
    · obtain ⟨comma, hbytes, hless⟩ := exists_comma hview
      rw [h] at hround
      obtain ⟨object', st₁, hmember, hloop⟩ := Parse.andThen_eq_ok.1 hround.symm
      obtain ⟨key, colon, text, htext, hle, haccepted, hkeys', rfl⟩ :=
        parseObjectMember_ok hutf8 hparse (by dsimp only; omega) hmember
      dsimp only at htext hle
      obtain ⟨more, closing, hview₁, hmore, hall, rfl⟩ :=
        ih (by omega) (by omega) (hkeys' hkeys) hloop
      refine ⟨.cons comma key colon text more, closing, ?_,
        MoreMembers.accepted_cons.2 ⟨haccepted, hmore⟩, ?_, ?_⟩
      · rw [hbytes, htext, hview₁, MoreMembers.bytes]
        simp only [List.append_assoc]
      · rw [JsonObject.keys_append, List.append_assoc] at hall
        exact hall
      · rw [MoreMembers.eval, List.append_assoc, List.singleton_append]
        rfl

/-- A fault in the loop comes from the value of a member behind further members. -/
theorem objectLoop_fault (hutf8 : utf8.Decodes)
    (hparse : ∀ st, st.view.length < n → SoundAt parse st)
    (hn : st.view.length < n) (hfuel : st.view.length < fuel) (hkeys : object.keys.Nodup)
    {fault : Fault} (h : objectLoop utf8 parse fuel st object = .error (.fault fault)) :
    ∃ (more : MoreMembers) (comma : Structural) (key : StringText) (colon : Structural)
      (view : Bytes),
      st.view = more.bytes ++ (comma.bytes 0x2C ++ (key.bytes ++ (colon.bytes 0x3A ++ view))) ∧
        more.Accepted ∧ (object.keys ++ more.keys.map StringText.units).Nodup ∧ Stops view := by
  induction fuel generalizing st object with
  | zero => omega
  | succ fuel ih =>
    rcases objectLoop_round utf8 parse fuel st object with
      ⟨⟨error, hround⟩, -⟩ | ⟨behind, hview, loc, hround⟩ | ⟨behind, loc, hview, hround⟩
    · rw [h] at hround
      cases hround
    · rw [h] at hround
      cases hround
    · obtain ⟨comma, hbytes, hless⟩ := exists_comma hview
      rw [h] at hround
      rcases Parse.andThen_eq_fault.1 hround.symm with hstop | ⟨object', st₁, hmember, hloop⟩
      · obtain ⟨key, colon, view, htext, hstops⟩ :=
          parseObjectMember_fault hutf8 hparse (by dsimp only; omega) hstop
        refine ⟨.nil, comma, key, colon, view, ?_, MoreMembers.accepted_nil, ?_, hstops⟩
        · rw [hbytes]
          exact congrArg (comma.bytes 0x2C ++ ·) htext
        · simpa [MoreMembers.keys] using hkeys
      · obtain ⟨key, colon, text, htext, hle, haccepted, hkeys', rfl⟩ :=
          parseObjectMember_ok hutf8 hparse (by dsimp only; omega) hmember
        dsimp only at htext hle
        obtain ⟨more, comma', key', colon', view, hview₁, hmore, hall, hstops⟩ :=
          ih (by omega) (by omega) (hkeys' hkeys) hloop
        refine ⟨.cons comma key colon text more, comma', key', colon', view, ?_,
          MoreMembers.accepted_cons.2 ⟨haccepted, hmore⟩, ?_, hstops⟩
        · rw [hbytes, htext, hview₁, MoreMembers.bytes]
          simp only [List.append_assoc]
        · rw [JsonObject.keys_append, List.append_assoc] at hall
          exact hall

theorem parseObject_sound (hutf8 : utf8.Decodes)
    (hparse : ∀ st, st.view.length < n → SoundAt parse st)
    (hn : st.view.length ≤ n) {rest : Bytes} (hview : st.view = 0x7B :: rest) :
    SoundAt (parseObject utf8 parse) st := by
  have hrest := dropWs_length_le rest
  have hlength : st.view.length = rest.length + 1 := by rw [hview, List.length_cons]
  have hdrop : dropWs st.view = 0x7B :: rest := by rw [hview, dropWs_cons (by decide)]
  obtain ⟨opening, hopening⟩ := exists_structural hdrop
  rcases parseObject_open utf8 parse hview with
    ⟨-, error, hopen⟩ | ⟨more, hmore, loc, hopen⟩ | ⟨c, more, loc, hmore, -, hopen⟩
  · constructor
    · intro value st' h
      rw [h] at hopen
      cases hopen
    · intro fault h
      rw [h] at hopen
      cases hopen
  · have hend : dropWs (dropWs rest) = 0x7D :: more := by rw [hmore, dropWs_idem hmore]
    obtain ⟨closing, hclosing⟩ := exists_structural hend
    constructor
    · intro value st' h
      rw [h] at hopen
      cases hopen
      refine ⟨.emptyObject opening closing, ?_, ValueText.accepted_leaf rfl trivial, rfl⟩
      rw [hopening, hclosing, ValueText.bytes, List.append_assoc]
    · intro fault h
      rw [h] at hopen
      cases hopen
  · have hshort : (⟨c :: more, loc⟩ : JsonParseState).view.length < n := by
      rw [← hmore]
      dsimp only
      omega
    constructor
    · intro value st' h
      rw [h] at hopen
      obtain ⟨object', st₁, hfirst, hloop⟩ := Parse.andThen_eq_ok.1 hopen.symm
      obtain ⟨key, colon, text, htext, hle, haccepted, hone, rfl⟩ :=
        parseObjectMember_ok hutf8 hparse hshort hfirst
      dsimp only at htext hle
      rw [← hmore] at hle
      obtain ⟨members, closing, hview₁, hmembers, hkeys, rfl⟩ :=
        objectLoop_ok hutf8 hparse (by omega) (Nat.lt_succ_self _) (hone List.nodup_nil) hloop
      refine ⟨.object opening key colon text members closing, ?_,
        ValueText.accepted_object.2 ⟨hkeys, haccepted, hmembers⟩, rfl⟩
      rw [hopening, hmore, htext, hview₁, ValueText.bytes]
      simp only [List.append_assoc]
    · intro fault h
      rw [h] at hopen
      rcases Parse.andThen_eq_fault.1 hopen.symm with hstop | ⟨object', st₁, hfirst, hloop⟩
      · obtain ⟨key, colon, view, htext, hstops⟩ :=
          parseObjectMember_fault hutf8 hparse hshort hstop
        dsimp only at htext
        rw [hopening, hmore, htext]
        exact .firstMember opening key colon hstops
      · obtain ⟨key, colon, text, htext, hle, haccepted, hone, rfl⟩ :=
          parseObjectMember_ok hutf8 hparse hshort hfirst
        dsimp only at htext hle
        rw [← hmore] at hle
        obtain ⟨members, comma, key', colon', view, hview₁, hmembers, hkeys, hstops⟩ :=
          objectLoop_fault hutf8 hparse (by omega) (Nat.lt_succ_self _) (hone List.nodup_nil) hloop
        rw [hopening, hmore, htext, hview₁]
        exact .nextMember opening key colon text members comma key' colon' hkeys haccepted
          hmembers hstops

/-! ## Values -/

/-- **A result is the value of a text that the parser has read, and a fault comes only where it
stops.** -/
theorem parseValue_sound (hutf8 : utf8.Decodes) (n : ℕ) :
    ∀ st : JsonParseState, st.view.length < n → SoundAt (parseValue utf8 n) st := by
  induction n with
  | zero =>
    intro st hn
    omega
  | succ n ih =>
    intro st hn
    have hparse : ∀ st : JsonParseState, st.view.length < n → SoundAt (parseValue utf8 n) st := ih
    rcases hview : st.view with _ | ⟨c, rest⟩
    · constructor
      · intro value st' h
        rw [parseValue, hview] at h
        simp at h
      · intro fault h
        rw [parseValue, hview] at h
        simp at h
    by_cases hobject : c = 0x7B
    · subst hobject
      exact (parseObject_sound hutf8 hparse (by omega) hview).congr (parseValue_object hview)
    by_cases harray : c = 0x5B
    · subst harray
      exact (parseArray_sound hparse (by omega) hview).congr (parseValue_array hview)
    by_cases hnumber : c = 0x2D ∨ isDigit c = true
    · have hparse : parseValue utf8 (n + 1) st = _ := parseValue_number hview hnumber
      constructor
      · intro value st' h
        rw [hparse] at h
        obtain ⟨number, hbytes, hunseen, rfl⟩ := parseNumber_sound h
        refine ⟨.number number, hbytes, ⟨?_, trivial⟩, rfl⟩
        simpa [ValueText.numbers] using hunseen
      · intro fault h
        rw [hparse] at h
        exact .number (parseNumber_fault h)
    by_cases hstring : c = 0x22
    · subst hstring
      have hparse : parseValue utf8 (n + 1) st = _ := parseValue_string hview
      constructor
      · intro value st' h
        rw [hparse] at h
        obtain ⟨string, st₁, hstring, hout⟩ := Parse.andThen_eq_ok.1 h
        cases hout
        obtain ⟨text, hbytes, rfl⟩ := parseString_sound hutf8 hstring
        exact ⟨.string text, hbytes, ValueText.accepted_leaf rfl trivial, rfl⟩
      · intro fault h
        rw [hparse] at h
        rcases Parse.andThen_eq_fault.1 h with hstop | ⟨string, st₁, -, hout⟩
        · exact absurd hstop (parseString_no_fault hutf8 st fault)
        · cases hout
    by_cases hnull : c = 0x6E
    · subst hnull
      have hparse : parseValue utf8 (n + 1) st = parseNull st := by
        rw [parseValue, hview]
        rfl
      constructor
      · intro value st' h
        rw [hparse] at h
        obtain ⟨hbytes, rfl⟩ := exists_null h
        exact ⟨.null, hbytes, ValueText.accepted_leaf rfl trivial, rfl⟩
      · intro fault h
        rw [hparse, parseNull] at h
        split_ifs at h
        simp at h
    by_cases hboolean : c = 0x66 ∨ c = 0x74
    · have hparse : parseValue utf8 (n + 1) st = parseBoolean st := by
        rw [parseValue, hview]
        rcases hboolean with rfl | rfl <;> rfl
      constructor
      · intro value st' h
        rw [hparse] at h
        obtain ⟨boolean, hbytes, rfl⟩ := exists_boolean h
        exact ⟨.boolean boolean, hbytes, ValueText.accepted_leaf rfl trivial, rfl⟩
      · intro fault h
        rw [hparse, parseBoolean] at h
        split_ifs at h
        simp at h
    · -- no value begins with this byte
      rw [not_or] at hnumber hboolean
      have hparse : ∃ error, parseValue utf8 (n + 1) st = .error (.error error) := by
        rw [parseValue, hview]
        dsimp only
        rw [if_neg hboolean.1, if_neg hnull, if_neg hboolean.2, if_neg hobject, if_neg harray,
          if_neg hnumber.1, if_neg hstring, if_neg hnumber.2]
        split_ifs <;> exact ⟨_, rfl⟩
      obtain ⟨error, herror⟩ := hparse
      constructor
      · intro value st' h
        rw [herror] at h
        cases h
      · intro fault h
        rw [herror] at h
        cases h

end SimpleServer.Json
