import SimpleServer.Proof.QueryParameters

/-!
# Printing a path and parsing it again

The printer leaves out the fragment, writes no '&' between search parameters and ends every part
at its first zero byte.

* `parseUrlPath_clean`: the separators that a parsed path is free of.
* `pathRoundTrips_iff`: **which paths come back.**
-/

namespace SimpleServer.Http

open Lib

variable {strings : RequestUriStrings} {order : SearchPathOrder} {str : Bytes}
variable {parsed : ParsedURLPath}

/-! ## C strings -/

theorem zero_notMem_tstrCstr (str : Bytes) : 0 ∉ tstrCstr str := by
  intro hmem
  have hnot := List.mem_takeWhile_imp hmem
  simp at hnot

theorem tstrCstr_subset (str : Bytes) : tstrCstr str ⊆ str :=
  (List.takeWhile_sublist _).subset

theorem tstrCstr_eq_self (h : 0 ∉ str) : tstrCstr str = str := by
  apply List.takeWhile_eq_self_iff.2
  intro c hc
  have hne : c ≠ 0 := by
    rintro rfl
    exact h hc
  exact decide_eq_true hne

/-! ## What a parsed path looks like -/

/-- The separators that the parser took out of the parts of a path. -/
structure CleanPath (parsed : ParsedURLPath) : Prop where
  path : 0x3F ∉ parsed.path
  keys : ∀ entry ∈ parsed.searchPath, 0x26 ∉ entry.1 ∧ 0x3D ∉ entry.1 ∧ 0x23 ∉ entry.1
  values : ∀ entry ∈ parsed.searchPath, 0x26 ∉ entry.2 ∧ 0x23 ∉ entry.2

/-- The parts of a path are made of bytes of a text. -/
structure PathWithin (parsed : ParsedURLPath) (str : Bytes) : Prop where
  path : parsed.path ⊆ str
  entries : ∀ entry ∈ parsed.searchPath, entry.1 ⊆ str ∧ entry.2 ⊆ str

theorem splitOr_within (hlaw : strings.Lawful) (str : Bytes) (separator : UInt8) :
    separator ∉ (strings.splitOr str separator).1 ∧ (strings.splitOr str separator).1 ⊆ str ∧
      (strings.splitOr str separator).2 ⊆ str := by
  by_cases hmem : separator ∈ str
  · obtain ⟨first, second, rfl, hnot⟩ := List.eq_append_cons_of_mem hmem
    rw [splitOr_some hlaw hnot]
    refine ⟨hnot, List.subset_append_left _ _, ?_⟩
    intro c hc
    exact List.mem_append_right _ (List.mem_cons_of_mem _ hc)
  · rw [splitOr_none hlaw hmem]
    exact ⟨hmem, List.Subset.refl _, List.nil_subset _⟩

/-- The entries that the loop adds. -/
theorem parseSearchParams_entries (hlaw : strings.Lawful) {fuel : ℕ} {query : Bytes}
    {map map' : ParsedSearchPath} (h : strings.parseSearchParams fuel query map = some map')
    {entry : Bytes × Bytes} (hentry : entry ∈ map'.entries) (hnew : entry ∉ map.entries) :
    (0x26 ∉ entry.1 ∧ 0x3D ∉ entry.1 ∧ 0x26 ∉ entry.2) ∧ entry.1 ⊆ query ∧ entry.2 ⊆ query := by
  induction fuel generalizing query map with
  | zero =>
    cases h
    exact absurd hentry hnew
  | succ fuel ih =>
    unfold UriStrings.parseSearchParams at h
    split_ifs at h
    · cases h
      exact absurd hentry hnew
    · obtain ⟨hcurrent, hsub, hrest⟩ := splitOr_within hlaw query 0x26
      obtain ⟨hkey, hkeySub, hvalueSub⟩ :=
        splitOr_within hlaw (strings.splitOr query 0x26).1 0x3D
      dsimp only at h
      cases hinsert : map.insert (strings.splitOr (strings.splitOr query 0x26).1 0x3D).1
        (strings.splitOr (strings.splitOr query 0x26).1 0x3D).2 with
      | none =>
        rw [hinsert] at h
        cases h
      | some next =>
        rw [hinsert] at h
        by_cases hround : entry ∈ next.entries
        · have hlast : entry = strings.splitOr (strings.splitOr query 0x26).1 0x3D := by
            unfold ParsedSearchPath.insert at hinsert
            split_ifs at hinsert
            cases hinsert
            rcases List.mem_append.1 hround with hold | hlast
            · exact absurd hold hnew
            · exact List.mem_singleton.1 hlast
          rw [hlast]
          refine ⟨⟨?_, hkey, ?_⟩, ?_, ?_⟩
          · exact fun hmem => hcurrent (hkeySub hmem)
          · exact fun hmem => hcurrent (hvalueSub hmem)
          · exact List.Subset.trans hkeySub hsub
          · exact List.Subset.trans hvalueSub hsub
        · obtain ⟨hclean, hkeys, hvalues⟩ := ih h hround
          exact ⟨hclean, List.Subset.trans hkeys hrest, List.Subset.trans hvalues hrest⟩

theorem splitUrlPath_within (hlaw : strings.Lawful) (str : Bytes) :
    0x3F ∉ (strings.splitUrlPath str).1 ∧ 0x23 ∉ (strings.splitUrlPath str).2.1 ∧
      (strings.splitUrlPath str).1 ⊆ str ∧ (strings.splitUrlPath str).2.1 ⊆ str := by
  rw [UriStrings.splitUrlPath, hlaw.split]
  by_cases hmem : 0x3F ∈ str
  · obtain ⟨path, second, rfl, hnot⟩ := List.eq_append_cons_of_mem hmem
    obtain ⟨hquery, hsub, -⟩ := splitOr_within hlaw second 0x23
    rw [splitFirst_append_cons hnot]
    refine ⟨hnot, hquery, List.subset_append_left _ _, ?_⟩
    intro c hc
    exact List.mem_append_right _ (List.mem_cons_of_mem _ (hsub hc))
  · obtain ⟨-, hsub, -⟩ := splitOr_within hlaw str 0x23
    rw [splitFirst_eq_none_of_not_mem hmem]
    exact ⟨fun hin => hmem (hsub hin), List.not_mem_nil, hsub, List.nil_subset _⟩

/-- The path is a beginning of the text, up to a mark of the query or of the fragment. -/
theorem splitUrlPath_tail (hlaw : strings.Lawful) (str : Bytes) :
    ∃ tail, str = (strings.splitUrlPath str).1 ++ tail ∧
      ∀ c ∈ tail.head?, c = 0x3F ∨ c = 0x23 := by
  rw [UriStrings.splitUrlPath, hlaw.split]
  by_cases hmem : 0x3F ∈ str
  · obtain ⟨path, second, rfl, hnot⟩ := List.eq_append_cons_of_mem hmem
    rw [splitFirst_append_cons hnot]
    exact ⟨0x3F :: second, rfl, by simp⟩
  · rw [splitFirst_eq_none_of_not_mem hmem]
    dsimp only
    by_cases hhash : 0x23 ∈ str
    · obtain ⟨path, fragment, rfl, hnot⟩ := List.eq_append_cons_of_mem hhash
      rw [splitOr_some hlaw hnot]
      exact ⟨0x23 :: fragment, rfl, by simp⟩
    · rw [splitOr_none hlaw hhash]
      exact ⟨[], (List.append_nil _).symm, by simp⟩

theorem parseUrlPath_path (h : strings.parseUrlPath str = some parsed) :
    parsed.path = (strings.splitUrlPath str).1 := by
  obtain ⟨map, -, rfl⟩ := Option.map_eq_some_iff.1 h
  rfl

theorem parseUrlPath_clean (hlaw : strings.Lawful)
    (h : strings.parseUrlPath str = some parsed) : CleanPath parsed ∧ PathWithin parsed str := by
  obtain ⟨hpath, hhash, hpathSub, hquerySub⟩ := splitUrlPath_within hlaw str
  obtain ⟨map, hmap, rfl⟩ := Option.map_eq_some_iff.1 h
  have hentries : ∀ entry ∈ map.entries, _ := fun entry hentry =>
    parseSearchParams_entries hlaw hmap hentry List.not_mem_nil
  refine ⟨⟨hpath, ?_, ?_⟩, ⟨hpathSub, ?_⟩⟩
  · intro entry hentry
    obtain ⟨⟨hamp, heq, -⟩, hkey, -⟩ := hentries entry hentry
    exact ⟨hamp, heq, fun hmem => hhash (hkey hmem)⟩
  · intro entry hentry
    obtain ⟨⟨-, -, hamp⟩, -, hvalue⟩ := hentries entry hentry
    exact ⟨hamp, fun hmem => hhash (hvalue hmem)⟩
  · intro entry hentry
    obtain ⟨-, hkey, hvalue⟩ := hentries entry hentry
    exact ⟨List.Subset.trans hkey hquerySub, List.Subset.trans hvalue hquerySub⟩

/-! ## Printing a path -/

/-- What the printer makes of one search parameter. -/
def entryAsString (entry : Bytes × Bytes) : Bytes :=
  tstrCstr entry.1 ++ if entry.2.length ≠ 0 then ascii "=" ++ tstrCstr entry.2 else []

/-- No separator is written between search parameters. -/
theorem searchPathAsString_eq (entries : List (Bytes × Bytes)) :
    searchPathAsString true entries = entries.flatMap entryAsString := by
  induction entries with
  | nil => rfl
  | cons entry entries ih =>
    rw [searchPathAsString, ih, List.flatMap_cons, if_neg (by simp), List.nil_append]
    rfl

theorem entryAsString_subset (entry : Bytes × Bytes) :
    entryAsString entry ⊆ entry.1 ++ 0x3D :: entry.2 := by
  unfold entryAsString
  intro c hc
  rcases List.mem_append.1 hc with hkey | hvalue
  · exact List.mem_append_left _ (tstrCstr_subset _ hkey)
  · split_ifs at hvalue with hempty
    · rcases List.mem_append.1 hvalue with hequals | hvalue
      · have hbyte : c = 0x3D := by simpa [ascii] using hequals
        simp [hbyte]
      · exact List.mem_append_right _ (List.mem_cons_of_mem _ (tstrCstr_subset _ hvalue))
    · cases hvalue

variable (order) in
/-- The text of the search parameters has no separator of them and no fragment. -/
theorem searchText_clean (hclean : CleanPath parsed) :
    0x26 ∉ (order.iterate parsed.searchPath).flatMap entryAsString ∧
      0x23 ∉ (order.iterate parsed.searchPath).flatMap entryAsString := by
  have hparts : ∀ c ∈ (order.iterate parsed.searchPath).flatMap entryAsString,
      ∃ entry ∈ parsed.searchPath, c ∈ entry.1 ++ 0x3D :: entry.2 := by
    intro c hc
    obtain ⟨entry, hentry, hc⟩ := List.mem_flatMap.1 hc
    exact ⟨entry, (order.perm _).mem_iff.1 hentry, entryAsString_subset entry hc⟩
  constructor
  · intro hmem
    obtain ⟨entry, hentry, hc⟩ := hparts _ hmem
    simp [(hclean.keys entry hentry).1, (hclean.values entry hentry).1] at hc
  · intro hmem
    obtain ⟨entry, hentry, hc⟩ := hparts _ hmem
    simp [(hclean.keys entry hentry).2.2, (hclean.values entry hentry).2] at hc

/-- The entries of a query without '&'. -/
def singleEntry (strings : RequestUriStrings) (query : Bytes) : List (Bytes × Bytes) :=
  if query = [] then [] else [strings.splitOr query 0x3D]

theorem parseSearchParams_single (hlaw : strings.Lawful) {query : Bytes} (h : 0x26 ∉ query) :
    ∃ map, strings.parseSearchParams query.length query .empty = some map ∧
      map.entries = singleEntry strings query := by
  unfold singleEntry
  cases query with
  | nil => exact ⟨.empty, rfl, rfl⟩
  | cons c query =>
    have hsplit := splitOr_none hlaw h
    obtain ⟨map, hinsert, hentries⟩ : ∃ map, ParsedSearchPath.empty.insert
        (strings.splitOr (c :: query) 0x3D).1 (strings.splitOr (c :: query) 0x3D).2 = some map ∧
          map.entries = [strings.splitOr (c :: query) 0x3D] :=
      ⟨_, dif_neg List.not_mem_nil, rfl⟩
    refine ⟨map, ?_, by rw [if_neg (List.cons_ne_nil _ _), hentries]⟩
    rw [List.length_cons, UriStrings.parseSearchParams, if_neg (by simp), hsplit]
    dsimp only
    rw [hinsert]
    cases query <;> rfl

/-- What is parsed of a path without search parameters. -/
theorem parse_printed_none (hlaw : strings.Lawful) (hclean : CleanPath parsed)
    (hentries : parsed.searchPath = []) :
    strings.parseUrlPath (getParsedUrlAsString order parsed) =
      some ⟨(strings.splitOr (tstrCstr parsed.path) 0x23).1, [],
        some (strings.splitOr (tstrCstr parsed.path) 0x23).2⟩ := by
  have hmark : 0x3F ∉ tstrCstr parsed.path := fun hmem => hclean.path (tstrCstr_subset _ hmem)
  rw [getParsedUrlAsString, hentries, List.isEmpty_nil, if_pos rfl, List.append_nil,
    UriStrings.parseUrlPath, UriStrings.splitUrlPath, hlaw.split,
    splitFirst_eq_none_of_not_mem hmark]
  rfl

/-- What is parsed of a path with search parameters. -/
theorem parse_printed_some (hlaw : strings.Lawful) (hclean : CleanPath parsed)
    (hentries : parsed.searchPath ≠ []) :
    strings.parseUrlPath (getParsedUrlAsString order parsed) =
      some ⟨tstrCstr parsed.path,
        singleEntry strings ((order.iterate parsed.searchPath).flatMap entryAsString),
        some []⟩ := by
  have hmark : 0x3F ∉ tstrCstr parsed.path := fun hmem => hclean.path (tstrCstr_subset _ hmem)
  obtain ⟨hamp, hhash⟩ := searchText_clean order hclean
  have htext : getParsedUrlAsString order parsed = tstrCstr parsed.path ++
      0x3F :: (order.iterate parsed.searchPath).flatMap entryAsString := by
    rw [getParsedUrlAsString, if_neg (by simpa using hentries), searchPathAsString_eq]
    rfl
  obtain ⟨map, hmap, hmapEntries⟩ := parseSearchParams_single hlaw hamp
  rw [htext, UriStrings.parseUrlPath, UriStrings.splitUrlPath, hlaw.split,
    splitFirst_append_cons hmark]
  dsimp only
  rw [splitOr_none hlaw hhash, hmap, Option.map_some, hmapEntries]

/-! ## Which paths come back -/

/-- The same path, whatever the order of the search parameters. -/
structure SamePath (parsed parsed' : ParsedURLPath) : Prop where
  path : parsed.path = parsed'.path
  entries : parsed.searchPath.Perm parsed'.searchPath
  fragment : parsed.fragment = parsed'.fragment

/-- The search parameters that are printed so that they are parsed again: none, behind a path
without a fragment of its own, or a single one that is not empty. -/
inductive PrintableEntries (path : Bytes) : List (Bytes × Bytes) → Prop
  | none (h : 0x23 ∉ path) : PrintableEntries path []
  | single {key value : Bytes} (hkey : 0 ∉ key) (hvalue : 0 ∉ value)
    (hne : key ≠ [] ∨ value ≠ []) : PrintableEntries path [(key, value)]

/-- The paths that come back. -/
structure PrintablePath (parsed : ParsedURLPath) : Prop where
  path : 0 ∉ parsed.path
  fragment : parsed.fragment = some []
  entries : PrintableEntries parsed.path parsed.searchPath

theorem entryAsString_key {key value : Bytes} (h : 0x3D ∉ key) (hlaw : strings.Lawful) :
    strings.splitOr (entryAsString (key, value)) 0x3D = (tstrCstr key, tstrCstr value) := by
  have hequals : 0x3D ∉ tstrCstr key := fun hmem => h (tstrCstr_subset _ hmem)
  unfold entryAsString
  split_ifs with hempty
  · exact splitOr_some hlaw hequals _
  · have hnil : value = [] := by simpa [List.length_eq_zero_iff] using hempty
    rw [List.append_nil, splitOr_none hlaw hequals, hnil]
    rfl

theorem entryAsString_eq_nil {key value : Bytes} :
    entryAsString (key, value) = [] ↔ tstrCstr key = [] ∧ value = [] := by
  unfold entryAsString
  rw [List.append_eq_nil_iff]
  split_ifs with hempty
  · have hne : value ≠ [] := by simpa [List.length_eq_zero_iff] using hempty
    simp [hne, ascii]
  · have hnil : value = [] := by simpa [List.length_eq_zero_iff] using hempty
    simp [hnil]

theorem tstrCstr_eq_self_iff : tstrCstr str = str ↔ 0 ∉ str := by
  constructor
  · intro h
    rw [← h]
    exact zero_notMem_tstrCstr str
  · exact tstrCstr_eq_self

/-- A single entry comes back if and only if no zero byte cuts it and it is not empty. -/
theorem singleEntry_iff (hlaw : strings.Lawful) {key value : Bytes} (h : 0x3D ∉ key) :
    singleEntry strings (entryAsString (key, value)) = [(key, value)] ↔
      0 ∉ key ∧ 0 ∉ value ∧ (key ≠ [] ∨ value ≠ []) := by
  rw [← tstrCstr_eq_self_iff, ← tstrCstr_eq_self_iff]
  unfold singleEntry
  rw [entryAsString_key h hlaw]
  constructor
  · intro hsingle
    split_ifs at hsingle with hempty
    obtain ⟨hkey, hvalue⟩ := Prod.mk.inj (List.cons.inj hsingle).1
    rw [entryAsString_eq_nil, hkey, not_and_or] at hempty
    exact ⟨hkey, hvalue, hempty⟩
  · rintro ⟨hkey, hvalue, hne⟩
    have hfull : entryAsString (key, value) ≠ [] := by
      intro hempty
      rw [entryAsString_eq_nil, hkey] at hempty
      exact not_and_or.2 hne hempty
    rw [if_neg hfull, hkey, hvalue]

theorem iterate_singleton (entry : Bytes × Bytes) : order.iterate [entry] = [entry] :=
  List.perm_singleton.1 (order.perm _)

variable (order) in
/-- **The paths that come back.** -/
theorem pathRoundTrips_iff (hlaw : strings.Lawful) (hclean : CleanPath parsed) :
    (∃ parsed', strings.parseUrlPath (getParsedUrlAsString order parsed) = some parsed' ∧
      SamePath parsed' parsed) ↔ PrintablePath parsed := by
  obtain ⟨path, entries, fragment⟩ := parsed
  by_cases hentries : entries = []
  · subst hentries
    rw [parse_printed_none hlaw hclean rfl]
    constructor
    · rintro ⟨parsed', hparsed, hsame⟩
      cases hparsed
      obtain ⟨hpath, -, hfragment⟩ := hsame
      dsimp only at hpath hfragment
      obtain ⟨hhash, hsub, -⟩ := splitOr_within hlaw (tstrCstr path) 0x23
      rw [hpath] at hhash hsub
      have hzero : 0 ∉ path := fun hmem => zero_notMem_tstrCstr path (hsub hmem)
      rw [tstrCstr_eq_self hzero, splitOr_none hlaw hhash] at hfragment
      exact ⟨hzero, hfragment.symm, .none hhash⟩
    · rintro ⟨hzero, hfragment, hprintable⟩
      cases hprintable with
      | none hhash =>
        refine ⟨_, rfl, ?_, .refl _, ?_⟩
        · rw [tstrCstr_eq_self hzero, splitOr_none hlaw hhash]
        · rw [tstrCstr_eq_self hzero, splitOr_none hlaw hhash, hfragment]
  · rw [parse_printed_some hlaw hclean hentries]
    constructor
    · rintro ⟨parsed', hparsed, hsame⟩
      cases hparsed
      obtain ⟨hpath, hperm, hfragment⟩ := hsame
      dsimp only at hpath hperm hfragment
      have hsmall : (singleEntry strings
          ((order.iterate entries).flatMap entryAsString)).length ≤ 1 := by
        unfold singleEntry
        split_ifs <;> simp
      rw [hperm.length_eq] at hsmall
      obtain ⟨⟨key, value⟩, rfl⟩ : ∃ entry, entries = [entry] := by
        match entries, hentries, hsmall with
        | [entry], _, _ => exact ⟨entry, rfl⟩
      rw [iterate_singleton, List.flatMap_singleton, List.perm_singleton,
        singleEntry_iff hlaw (hclean.keys _ (List.mem_singleton_self _)).2.1] at hperm
      exact ⟨tstrCstr_eq_self_iff.1 hpath, hfragment.symm, .single hperm.1 hperm.2.1 hperm.2.2⟩
    · rintro ⟨hzero, hfragment, hprintable⟩
      cases hprintable with
      | none => exact absurd rfl hentries
      | single hkey hvalue hne =>
        have hequals := (hclean.keys _ (List.mem_singleton_self _)).2.1
        refine ⟨_, rfl, tstrCstr_eq_self hzero, ?_, hfragment.symm⟩
        dsimp only
        rw [iterate_singleton, List.flatMap_singleton,
          (singleEntry_iff hlaw hequals).2 ⟨hkey, hvalue, hne⟩]

end SimpleServer.Http
