import SimpleServer.Http.Uri
import SimpleServer.Http2.Request

/-!
# The pseudo header fields of a request

The loop over the decoded fields collects the pseudo header fields until the first other field.
Which lists it accepts is a condition on the fields alone (`RequestFields`), and the head is
made of their values.

* `parsePseudoHeader_ok_iff`: one pseudo header field.
* `parseHeaderFields_ok_iff`: the loop, by induction on the fields.
* `headersRight_iff`: **which lists are handled as they should be**, with the parser of paths as
  it is: it ends the program where a search parameter comes twice.
-/

namespace SimpleServer.Http2

open Hpack

variable {Authority UrlPath : Type} {uri : UriParser Authority UrlPath} {id : ℕ}
  {fields pseudo others done : List HttpHeaderField} {entry : HttpHeaderField}
  {head result : HttpRequestHead Authority UrlPath}

/-! ## Requests -/

/-- The key starts with a colon. -/
def IsPseudo (entry : HttpHeaderField) : Prop := entry.key.head? = some 0x3A

instance : DecidablePred IsPseudo := fun _ => inferInstanceAs (Decidable (_ = _))

def pseudoFields (fields : List HttpHeaderField) : List HttpHeaderField := fields.filter IsPseudo

def otherFields (fields : List HttpHeaderField) : List HttpHeaderField :=
  fields.filter fun entry => ¬ IsPseudo entry

def requestPseudoHeaders : List Bytes :=
  [ascii ":method", ascii ":scheme", ascii ":authority", ascii ":path"]

def neededPseudoHeaders : List Bytes := [ascii ":method", ascii ":scheme", ascii ":path"]

/-- What the fields of a request have to be. -/
structure RequestFields (uri : UriParser Authority UrlPath) (fields : List HttpHeaderField) :
    Prop where
  first : fields = pseudoFields fields ++ otherFields fields
  known : ∀ entry ∈ pseudoFields fields, entry.key ∈ requestPseudoHeaders
  once : ((pseudoFields fields).map (·.key)).Nodup
  needed : ∀ key ∈ neededPseudoHeaders, key ∈ (pseudoFields fields).map (·.key)
  method : ∀ entry ∈ pseudoFields fields, entry.key = ascii ":method" →
    (getHttpMethodFromString entry.value).isSome
  authority : ∀ entry ∈ pseudoFields fields, entry.key = ascii ":authority" →
    ∃ authority, uri.parseAuthority entry.value = some (authority, [])

/-- The parser of paths returns for the path of the request. -/
def PathTaken (uri : UriParser Authority UrlPath) (fields : List HttpHeaderField) : Prop :=
  ∀ entry ∈ pseudoFields fields, entry.key = ascii ":path" → (uri.parseUrlPath entry.value).isSome

/-- The value of the first field with a key. -/
def valueOf (fields : List HttpHeaderField) (key : Bytes) : Option Bytes :=
  (fields.find? fun entry => entry.key = key).map (·.value)

/-- The head with the values of the pseudo header fields. -/
def headOfPseudo (uri : UriParser Authority UrlPath) (id : ℕ)
    (pseudo others : List HttpHeaderField) : HttpRequestHead Authority UrlPath where
  streamIdentifier := id
  method := (valueOf pseudo (ascii ":method")).bind getHttpMethodFromString
  scheme := valueOf pseudo (ascii ":scheme")
  authority := (valueOf pseudo (ascii ":authority")).bind fun value =>
    (uri.parseAuthority value).map Prod.fst
  path := (valueOf pseudo (ascii ":path")).bind uri.parseUrlPath
  headerFields := others

/-! ## One field -/

/-- A pseudo header field of a request whose value can be parsed. -/
structure PseudoOk (uri : UriParser Authority UrlPath) (entry : HttpHeaderField) : Prop where
  known : entry.key ∈ requestPseudoHeaders
  method : entry.key = ascii ":method" → (getHttpMethodFromString entry.value).isSome
  authority : entry.key = ascii ":authority" →
    ∃ authority, uri.parseAuthority entry.value = some (authority, [])
  path : entry.key = ascii ":path" → (uri.parseUrlPath entry.value).isSome

theorem valueOf_append (key : Bytes) :
    valueOf (fields ++ [entry]) key =
      (valueOf fields key).or (if entry.key = key then some entry.value else none) := by
  unfold valueOf
  rw [List.find?_append]
  cases fields.find? fun entry => entry.key = key with
  | some found => rfl
  | none =>
    by_cases hkey : entry.key = key
    · simp [hkey]
    · simp [hkey]

theorem valueOf_eq_none {key : Bytes} (h : key ∉ fields.map (·.key)) :
    valueOf fields key = none := by
  unfold valueOf
  rw [Option.map_eq_none_iff, List.find?_eq_none]
  intro entry hentry hkey
  exact h (List.mem_map.2 ⟨entry, hentry, by simpa using hkey⟩)

theorem exists_valueOf {key : Bytes} (h : key ∈ fields.map (·.key)) :
    ∃ entry ∈ fields, entry.key = key ∧ valueOf fields key = some entry.value := by
  unfold valueOf
  obtain ⟨entry, hentry, hkey⟩ := List.mem_map.1 h
  cases hfound : fields.find? fun entry => entry.key = key with
  | none =>
    rw [List.find?_eq_none] at hfound
    exact absurd (by simpa using hkey) (hfound entry hentry)
  | some found =>
    exact ⟨found, List.mem_of_find?_eq_some hfound, by simpa using List.find?_some hfound, rfl⟩

/-- What was found of a field is there if and only if the field is. -/
theorem headOfPseudo_isSome (id : ℕ) (others : List HttpHeaderField)
    (hdone : ∀ entry ∈ done, PseudoOk uri entry) :
    ((headOfPseudo uri id done others).method.isSome ↔ ascii ":method" ∈ done.map (·.key)) ∧
      ((headOfPseudo uri id done others).scheme.isSome ↔ ascii ":scheme" ∈ done.map (·.key)) ∧
      ((headOfPseudo uri id done others).authority.isSome ↔
        ascii ":authority" ∈ done.map (·.key)) ∧
      ((headOfPseudo uri id done others).path.isSome ↔ ascii ":path" ∈ done.map (·.key)) := by
  have hsome : ∀ {α : Type} (key : Bytes) (parse : Bytes → Option α),
      (∀ entry ∈ done, entry.key = key → (parse entry.value).isSome) →
      (((valueOf done key).bind parse).isSome ↔ key ∈ done.map (·.key)) := by
    intro α key parse hparse
    constructor
    · intro h
      by_contra hnot
      rw [valueOf_eq_none hnot] at h
      cases h
    · intro h
      obtain ⟨entry, hentry, hkey, hvalue⟩ := exists_valueOf h
      rw [hvalue]
      exact hparse entry hentry hkey
  refine ⟨?_, ?_, ?_, ?_⟩
  · apply hsome
    intro entry hentry hkey
    exact (hdone entry hentry).method hkey
  · have h := hsome (ascii ":scheme") some (fun _ _ _ => rfl)
    rwa [Option.bind_fun_some] at h
  · apply hsome
    intro entry hentry hkey
    obtain ⟨authority, hauthority⟩ := (hdone entry hentry).authority hkey
    rw [hauthority]
    rfl
  · apply hsome
    intro entry hentry hkey
    exact (hdone entry hentry).path hkey

/-- The head with one more field, which was not there. -/
theorem headOfPseudo_append (hnew : entry.key ∉ done.map (·.key)) :
    headOfPseudo uri id (done ++ [entry]) others =
      { headOfPseudo uri id done others with
        method := if entry.key = ascii ":method" then getHttpMethodFromString entry.value
          else (headOfPseudo uri id done others).method
        scheme := if entry.key = ascii ":scheme" then some entry.value
          else (headOfPseudo uri id done others).scheme
        authority := if entry.key = ascii ":authority" then
            (uri.parseAuthority entry.value).map Prod.fst
          else (headOfPseudo uri id done others).authority
        path := if entry.key = ascii ":path" then uri.parseUrlPath entry.value
          else (headOfPseudo uri id done others).path } := by
  have hvalue : ∀ key, valueOf (done ++ [entry]) key =
      if entry.key = key then some entry.value else valueOf done key := by
    intro key
    rw [valueOf_append]
    by_cases hkey : entry.key = key
    · rw [if_pos hkey, if_pos hkey, valueOf_eq_none (hkey ▸ hnew)]
      rfl
    · rw [if_neg hkey, if_neg hkey, Option.or_none]
  simp only [headOfPseudo, hvalue]
  congr 1
  · split_ifs <;> rfl
  · split_ifs <;> rfl
  · split_ifs <;> rfl

/-- **One pseudo header field** is taken if it is known, new and can be parsed. -/
theorem parsePseudoHeader_ok_iff (id : ℕ) (others : List HttpHeaderField)
    (hdone : ∀ entry ∈ done, PseudoOk uri entry) :
    parsePseudoHeader uri (headOfPseudo uri id done others) entry = .ok head ↔
      PseudoOk uri entry ∧ entry.key ∉ done.map (·.key) ∧
        head = headOfPseudo uri id (done ++ [entry]) others := by
  obtain ⟨hmethod, hscheme, hauthority, hpath⟩ :=
    headOfPseudo_isSome id others hdone
  have honce : ∀ {found : Bool} {key : Bytes} {result : HttpRequestHead Authority UrlPath},
      (found = true ↔ key ∈ done.map (·.key)) → entry.key = key → PseudoOk uri entry →
      (entry.key ∉ done.map (·.key) → result = headOfPseudo uri id (done ++ [entry]) others) →
      ((if found then Except.error (Fault.error "duplicate pseudo header field found")
          else .ok result) = .ok head ↔
        PseudoOk uri entry ∧ entry.key ∉ done.map (·.key) ∧
          head = headOfPseudo uri id (done ++ [entry]) others) := by
    intro found key result hfound hkey hok hresult
    subst hkey
    by_cases hmem : entry.key ∈ done.map (·.key)
    · rw [if_pos (hfound.2 hmem)]
      simp [hmem]
    · rw [if_neg (fun h => hmem (hfound.1 h)), hresult hmem]
      constructor
      · intro h
        exact ⟨hok, hmem, (Except.ok.inj h).symm⟩
      · rintro ⟨-, -, rfl⟩
        rfl
  -- a field with one of the four keys that has what this key asks for
  have hpseudo : ∀ {key : Bytes}, key ∈ requestPseudoHeaders → entry.key = key →
      (key = ascii ":method" → (getHttpMethodFromString entry.value).isSome) →
      (key = ascii ":authority" →
        ∃ authority, uri.parseAuthority entry.value = some (authority, [])) →
      (key = ascii ":path" → (uri.parseUrlPath entry.value).isSome) → PseudoOk uri entry := by
    rintro key hmem rfl hm ha hp
    exact ⟨hmem, hm, ha, hp⟩
  by_cases hkey : entry.key ∈ requestPseudoHeaders
  · simp only [requestPseudoHeaders, List.mem_cons, List.not_mem_nil, or_false] at hkey
    rcases hkey with hkey | hkey | hkey | hkey
    · cases hvalue : getHttpMethodFromString entry.value with
      | none =>
        have hbad : ¬ PseudoOk uri entry := by
          intro hok
          have hsome := hok.method hkey
          rw [hvalue] at hsome
          cases hsome
        simp [parsePseudoHeader, hkey, hvalue, hbad]
      | some method =>
        have hok : PseudoOk uri entry :=
          hpseudo (by decide) hkey (by simp [hvalue]) (by simp +decide) (by simp +decide)
        unfold parsePseudoHeader
        rw [if_pos hkey, hvalue]
        apply honce hmethod hkey hok
        intro hnew
        rw [headOfPseudo_append hnew, hkey]
        simp +decide [hvalue]
    · have hok : PseudoOk uri entry :=
        hpseudo (by decide) hkey (by simp +decide) (by simp +decide) (by simp +decide)
      unfold parsePseudoHeader
      rw [if_neg (by rw [hkey]; decide), if_pos hkey]
      apply honce hscheme hkey hok
      intro hnew
      rw [headOfPseudo_append hnew, hkey]
      simp +decide
    · cases hvalue : uri.parseAuthority entry.value with
      | none =>
        have hbad : ¬ PseudoOk uri entry := by
          intro hok
          obtain ⟨authority, hauthority⟩ := hok.authority hkey
          rw [hvalue] at hauthority
          cases hauthority
        simp +decide [parsePseudoHeader, hkey, hvalue, hbad]
      | some parsed =>
        obtain ⟨authority, after⟩ := parsed
        by_cases hafter : after.length ≠ 0
        · have hbad : ¬ PseudoOk uri entry := by
            intro hok
            obtain ⟨authority', hauthority'⟩ := hok.authority hkey
            rw [hvalue] at hauthority'
            cases hauthority'
            exact hafter rfl
          have hmore : ¬ after = [] := fun h => hafter (by rw [h]; rfl)
          simp +decide [parsePseudoHeader, hkey, hvalue, hbad, hmore]
        · have hnil : after = [] := List.eq_nil_of_length_eq_zero (by omega)
          subst hnil
          have hok : PseudoOk uri entry :=
            hpseudo (by decide) hkey (by simp +decide) (fun _ => ⟨authority, hvalue⟩)
              (by simp +decide)
          unfold parsePseudoHeader
          rw [if_neg (by rw [hkey]; decide), if_neg (by rw [hkey]; decide), if_pos hkey, hvalue]
          dsimp only
          rw [if_neg hafter]
          apply honce hauthority hkey hok
          intro hnew
          rw [headOfPseudo_append hnew, hkey]
          simp +decide [hvalue]
    · cases hvalue : uri.parseUrlPath entry.value with
      | none =>
        have hbad : ¬ PseudoOk uri entry := by
          intro hok
          have hsome := hok.path hkey
          rw [hvalue] at hsome
          cases hsome
        simp +decide [parsePseudoHeader, hkey, hvalue, hbad]
      | some path =>
        have hok : PseudoOk uri entry :=
          hpseudo (by decide) hkey (by simp +decide) (by simp +decide) (by simp [hvalue])
        unfold parsePseudoHeader
        rw [if_neg (by rw [hkey]; decide), if_neg (by rw [hkey]; decide),
          if_neg (by rw [hkey]; decide), if_pos hkey, hvalue]
        apply honce hpath hkey hok
        intro hnew
        rw [headOfPseudo_append hnew, hkey]
        simp +decide [hvalue]
  · have hbad : ¬ PseudoOk uri entry := fun hok => hkey hok.known
    have hother : ∀ key ∈ requestPseudoHeaders, entry.key ≠ key := by
      rintro key hmem rfl
      exact hkey hmem
    unfold parsePseudoHeader
    rw [if_neg (hother _ (by decide)), if_neg (hother _ (by decide)),
      if_neg (hother _ (by decide)), if_neg (hother _ (by decide))]
    split_ifs <;> simp [hbad]

/-! ## The loop -/

/-- Behind the first other field, only other fields are taken. -/
theorem parseHeaderFields_finished :
    parseHeaderFields uri fields true result = .ok head ↔
      (∀ entry ∈ fields, ¬ IsPseudo entry) ∧
        head = { result with headerFields := result.headerFields ++ fields } := by
  induction fields generalizing result with
  | nil => simp [parseHeaderFields, eq_comm]
  | cons entry fields ih =>
    unfold parseHeaderFields
    by_cases hpseudo : entry.key.head? = some 0x3A
    · rw [if_pos hpseudo, if_pos rfl]
      simp [IsPseudo, hpseudo]
    · rw [if_neg hpseudo, ih]
      simp [IsPseudo, hpseudo]

/-- **The loop** takes pseudo header fields, each with a key of its own, and then others. -/
theorem parseHeaderFields_ok_iff (id : ℕ) (fields : List HttpHeaderField)
    (head : HttpRequestHead Authority UrlPath) (hdone : ∀ entry ∈ done, PseudoOk uri entry)
    (hnodup : (done.map (·.key)).Nodup) :
    parseHeaderFields uri fields false (headOfPseudo uri id done []) = .ok head ↔
      ∃ pseudo others, fields = pseudo ++ others ∧
        (∀ entry ∈ pseudo, IsPseudo entry ∧ PseudoOk uri entry) ∧
        (∀ entry ∈ others, ¬ IsPseudo entry) ∧ ((done ++ pseudo).map (·.key)).Nodup ∧
        head = headOfPseudo uri id (done ++ pseudo) others := by
  induction fields generalizing done with
  | nil =>
    constructor
    · intro h
      refine ⟨[], [], rfl, by simp, by simp, by simpa using hnodup, ?_⟩
      rw [List.append_nil]
      exact (Except.ok.inj h).symm
    · rintro ⟨pseudo, others, hnil, -, -, -, rfl⟩
      obtain ⟨rfl, rfl⟩ := List.append_eq_nil_iff.1 hnil.symm
      rw [List.append_nil]
      rfl
  | cons entry fields ih =>
    unfold parseHeaderFields
    by_cases hpseudo : entry.key.head? = some 0x3A
    · rw [if_pos hpseudo, if_neg Bool.false_ne_true]
      -- whatever is accepted starts with this field
      have hsplit : ∀ pseudo others, entry :: fields = pseudo ++ others →
          (∀ entry ∈ others, ¬ IsPseudo entry) →
          ∃ pseudo', pseudo = entry :: pseudo' ∧ fields = pseudo' ++ others := by
        intro pseudo others hfields hothers
        cases pseudo with
        | nil =>
          rw [List.nil_append] at hfields
          exact absurd hpseudo (hothers entry (by rw [← hfields]; exact List.mem_cons_self))
        | cons first pseudo' =>
          obtain ⟨rfl, rfl⟩ := List.cons.inj hfields
          exact ⟨pseudo', rfl, rfl⟩
      cases hparse : parsePseudoHeader uri (headOfPseudo uri id done []) entry with
      | error e =>
        constructor
        · rintro ⟨⟩
        · rintro ⟨pseudo, others, hfields, hok, hothers, hall, -⟩
          obtain ⟨pseudo', rfl, -⟩ := hsplit pseudo others hfields hothers
          have hnew : entry.key ∉ done.map (·.key) := by
            intro hmem
            rw [List.map_append, List.map_cons] at hall
            exact List.disjoint_of_nodup_append hall hmem List.mem_cons_self
          have htaken := (parsePseudoHeader_ok_iff id [] hdone).2
            ⟨(hok entry List.mem_cons_self).2, hnew, rfl⟩
          rw [hparse] at htaken
          cases htaken
      | ok next =>
        obtain ⟨hok, hnew, rfl⟩ := (parsePseudoHeader_ok_iff id [] hdone).1 hparse
        have hdone' : ∀ entry' ∈ done ++ [entry], PseudoOk uri entry' := by
          intro entry' hmem
          rcases List.mem_append.1 hmem with hmem | hmem
          · exact hdone entry' hmem
          · rw [List.mem_singleton.1 hmem]
            exact hok
        have hnodup' : ((done ++ [entry]).map (·.key)).Nodup := by
          rw [List.map_append]
          exact List.nodup_append_comm.1 (List.nodup_cons.2 ⟨hnew, hnodup⟩)
        dsimp only
        rw [ih hdone' hnodup']
        constructor
        · rintro ⟨pseudo, others, rfl, hall, hothers, hkeys, rfl⟩
          refine ⟨entry :: pseudo, others, rfl, ?_, hothers, ?_, ?_⟩
          · intro entry' hmem
            rcases List.mem_cons.1 hmem with rfl | hmem
            · exact ⟨hpseudo, hok⟩
            · exact hall entry' hmem
          · rwa [List.append_assoc, List.singleton_append] at hkeys
          · rw [List.append_assoc, List.singleton_append]
        · rintro ⟨pseudo, others, hfields, hall, hothers, hkeys, rfl⟩
          obtain ⟨pseudo', rfl, rfl⟩ := hsplit pseudo others hfields hothers
          refine ⟨pseudo', others, rfl, ?_, hothers, ?_, ?_⟩
          · intro entry' hmem
            exact hall entry' (List.mem_cons_of_mem _ hmem)
          · rwa [List.append_assoc, List.singleton_append]
          · rw [List.append_assoc, List.singleton_append]
    · rw [if_neg hpseudo, parseHeaderFields_finished]
      constructor
      · rintro ⟨hfields, rfl⟩
        refine ⟨[], entry :: fields, rfl, by simp, ?_, by simpa using hnodup, ?_⟩
        · intro entry' hmem
          rcases List.mem_cons.1 hmem with rfl | hmem
          · exact hpseudo
          · exact hfields entry' hmem
        · simp [headOfPseudo]
      · rintro ⟨pseudo, others, hfields, hall, hothers, -, rfl⟩
        cases pseudo with
        | nil =>
          rw [List.nil_append] at hfields
          subst hfields
          refine ⟨fun entry' hmem => hothers entry' (List.mem_cons_of_mem _ hmem), ?_⟩
          simp [headOfPseudo]
        | cons first pseudo' =>
          obtain ⟨rfl, -⟩ := List.cons.inj hfields
          exact absurd (hall entry List.mem_cons_self).1 hpseudo

/-! ## The whole list -/

/-- Fields in this order are cut where the first other field stands. -/
theorem split_unique (hpseudo : ∀ entry ∈ pseudo, IsPseudo entry)
    (hothers : ∀ entry ∈ others, ¬ IsPseudo entry) :
    pseudoFields (pseudo ++ others) = pseudo ∧ otherFields (pseudo ++ others) = others := by
  unfold pseudoFields otherFields
  rw [List.filter_append, List.filter_append]
  constructor
  · rw [List.filter_eq_self.2 (by simpa using hpseudo),
      List.filter_eq_nil_iff.2 (by simpa using hothers), List.append_nil]
  · rw [List.filter_eq_nil_iff.2 (by simpa using hpseudo),
      List.filter_eq_self.2 (by simpa using hothers), List.nil_append]

theorem headOfFields_eq_ok :
    headOfFields uri fields id = .ok head ↔
      parseHeaderFields uri fields false (.empty id) = .ok head ∧
        head.method.isSome ∧ head.scheme.isSome ∧ head.path.isSome := by
  unfold headOfFields
  cases parseHeaderFields uri fields false (.empty id) with
  | error e => simp
  | ok result =>
    dsimp only
    split_ifs with hneeded
    · constructor
      · rintro ⟨⟩
        exact ⟨rfl, hneeded⟩
      · rintro ⟨⟨⟩, -⟩
        rfl
    · constructor
      · rintro ⟨⟩
      · rintro ⟨⟨⟩, hall⟩
        exact absurd hall hneeded

/-- **Which lists of fields are a request**, and its head. -/
theorem headOfFields_ok_iff :
    headOfFields uri fields id = .ok head ↔
      RequestFields uri fields ∧ PathTaken uri fields ∧
        head = headOfPseudo uri id (pseudoFields fields) (otherFields fields) := by
  have hnone : ∀ entry ∈ ([] : List HttpHeaderField), PseudoOk uri entry := by simp
  have hloop := parseHeaderFields_ok_iff id fields head hnone List.nodup_nil
  have hstart : headOfPseudo uri id [] [] = HttpRequestHead.empty id := rfl
  rw [hstart] at hloop
  rw [headOfFields_eq_ok, hloop]
  constructor
  · rintro ⟨⟨pseudo, others, rfl, hpseudo, hothers, hnodup, rfl⟩, hmethod, hscheme, hpath⟩
    obtain ⟨hfirst, hrest⟩ := split_unique (fun entry h => (hpseudo entry h).1) hothers
    have hok : ∀ entry ∈ pseudo, PseudoOk uri entry := fun entry h => (hpseudo entry h).2
    rw [List.nil_append] at hmethod hscheme hpath hnodup ⊢
    obtain ⟨hmethod', hscheme', -, hpath'⟩ :=
      headOfPseudo_isSome id others hok
    refine ⟨?_, ?_, by rw [hfirst, hrest]⟩
    · constructor
      · rw [hfirst, hrest]
      · rw [hfirst]
        exact fun entry h => (hok entry h).known
      · rwa [hfirst]
      · rw [hfirst]
        simp only [neededPseudoHeaders, List.forall_mem_cons]
        exact ⟨hmethod'.1 hmethod, hscheme'.1 hscheme, hpath'.1 hpath, by simp⟩
      · rw [hfirst]
        exact fun entry h => (hok entry h).method
      · rw [hfirst]
        exact fun entry h => (hok entry h).authority
    · unfold PathTaken
      rw [hfirst]
      exact fun entry h => (hok entry h).path
  · rintro ⟨hrequest, hpath, rfl⟩
    have hok : ∀ entry ∈ pseudoFields fields, PseudoOk uri entry := fun entry h =>
      ⟨hrequest.known entry h, hrequest.method entry h, hrequest.authority entry h, hpath entry h⟩
    obtain ⟨hmethod', hscheme', -, hpath'⟩ :=
      headOfPseudo_isSome id (otherFields fields) hok
    refine ⟨⟨pseudoFields fields, otherFields fields, hrequest.first, ?_, ?_, hrequest.once, rfl⟩,
      hmethod'.2 (hrequest.needed _ (by decide)), hscheme'.2 (hrequest.needed _ (by decide)),
      hpath'.2 (hrequest.needed _ (by decide))⟩
    · intro entry h
      have hcolon := (List.mem_filter.1 h).2
      exact ⟨by simpa using hcolon, hok entry h⟩
    · intro entry h
      have hcolon := (List.mem_filter.1 h).2
      simpa using hcolon

/-- The parsers of `uri.c`. -/
def uriParser (strings : Http.UriStrings) : UriParser Http.ParsedAuthority Http.ParsedURLPath :=
  ⟨strings.parseAuthority, strings.parseUrlPath⟩

/-- A decoded list is accepted exactly if it is a request, and the head has its values and the
other fields in order. -/
structure HeadersRight (uri : UriParser Authority UrlPath) (fields : List HttpHeaderField)
    (id : ℕ) (outcome : Except Fault (HttpRequestHead Authority UrlPath)) : Prop where
  ok_iff : (∃ head, outcome = .ok head) ↔ RequestFields uri fields
  head : ∀ head, outcome = .ok head →
    head = headOfPseudo uri id (pseudoFields fields) (otherFields fields)

/-- The search parameters of the path have pairwise different keys. -/
def DistinctSearchKeys (strings : Http.UriStrings) (fields : List HttpHeaderField) : Prop :=
  ∀ entry ∈ pseudoFields fields, entry.key = ascii ":path" →
    (strings.pathKeys entry.value).Nodup

/-- **Which lists of decoded fields are handled as they should be.** -/
theorem headersRight_iff (strings : Http.UriStrings) (state state' : HpackDecompressState)
    (headers : Http2StreamHeaders) (id : ℕ) (fields : List HttpHeaderField)
    (hdecoded : http2HpackDecompressData state (http2ConcatDataBlocks headers.headerBlocks) =
      (state', .ok fields)) :
    HeadersRight (uriParser strings) fields id
        (parseHttp2Headers (uriParser strings) state headers id).2 ↔
      (RequestFields (uriParser strings) fields → DistinctSearchKeys strings fields) := by
  have houtcome : (parseHttp2Headers (uriParser strings) state headers id).2 =
      headOfFields (uriParser strings) fields id := by
    unfold parseHttp2Headers
    rw [hdecoded]
  have hpath : PathTaken (uriParser strings) fields ↔ DistinctSearchKeys strings fields := by
    unfold PathTaken DistinctSearchKeys
    simp only [uriParser, Http.parseUrlPath_isSome]
  rw [houtcome]
  constructor
  · intro hright hrequest
    obtain ⟨head, hok⟩ := hright.ok_iff.2 hrequest
    exact hpath.1 (headOfFields_ok_iff.1 hok).2.1
  · intro hdistinct
    refine ⟨⟨?_, ?_⟩, ?_⟩
    · rintro ⟨head, hok⟩
      exact (headOfFields_ok_iff.1 hok).1
    · intro hrequest
      exact ⟨_, headOfFields_ok_iff.2 ⟨hrequest, hpath.2 (hdistinct hrequest), rfl⟩⟩
    · intro head hok
      exact (headOfFields_ok_iff.1 hok).2.2

/-- GET with this path over HTTP. -/
def getFields (path : Bytes) : List HttpHeaderField :=
  [⟨ascii ":method", ascii "GET"⟩, ⟨ascii ":scheme", ascii "http"⟩, ⟨ascii ":path", path⟩]

theorem headersRight_iff_root :
    HeadersRight (uriParser .plain) (getFields (ascii "/")) 1
      (parseHttp2Headers (uriParser .plain) (getDefaultHpackDynamicTableState 4096)
        ⟨true, [[0x82, 0x86, 0x84]]⟩ 1).2 := by
  rw [headersRight_iff .plain (getDefaultHpackDynamicTableState 4096)
    (getDefaultHpackDynamicTableState 4096) _ 1 (getFields (ascii "/")) (by decide)]
  intro _ entry hentry hkey
  have hall : ∀ entry ∈ pseudoFields (getFields (ascii "/")), entry.key = ascii ":path" →
      (Http.UriStrings.plain.pathKeys entry.value).Nodup := by decide
  exact hall entry hentry hkey

/-- A path in which a search parameter comes twice ends the program. -/
theorem repeatedParameter_ends :
    (http2HpackDecompressData (getDefaultHpackDynamicTableState 4096)
      (http2ConcatDataBlocks [[0x82, 0x86, 0x04, 0x05] ++ ascii "/?a&a"])).2 =
        .ok (getFields (ascii "/?a&a")) ∧
      ¬ HeadersRight (uriParser .plain) (getFields (ascii "/?a&a")) 1
        (parseHttp2Headers (uriParser .plain) (getDefaultHpackDynamicTableState 4096)
          ⟨true, [[0x82, 0x86, 0x04, 0x05] ++ ascii "/?a&a"]⟩ 1).2 := by
  refine ⟨by decide, ?_⟩
  intro hright
  have hrequest : RequestFields (uriParser .plain) (getFields (ascii "/?a&a")) := by
    refine ⟨by decide, by decide, by decide, by decide, by decide, ?_⟩
    have hnone : ∀ entry ∈ pseudoFields (getFields (ascii "/?a&a")),
        entry.key ≠ ascii ":authority" := by decide
    intro entry hentry hkey
    exact absurd hkey (hnone entry hentry)
  obtain ⟨head, hok⟩ := hright.ok_iff.2 hrequest
  have hends : (parseHttp2Headers (uriParser .plain) (getDefaultHpackDynamicTableState 4096)
      ⟨true, [[0x82, 0x86, 0x04, 0x05] ++ ascii "/?a&a"]⟩ 1).2 = .error .undefined := by decide
  rw [hends] at hok
  cases hok

end SimpleServer.Http2
