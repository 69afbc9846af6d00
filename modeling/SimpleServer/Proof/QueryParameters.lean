import SimpleServer.Proof.UriBoundaries

/-!
# Search parameters

The loop over the search parameters puts every key into a map that takes it once, and ends the
program at a key that is there already. It stops when nothing is left, so an empty parameter at
the end of a query is none.

* `parseSearchParams_text`: the entries that the loop makes of a query.
* `requestTargets_iff`: **which targets end the program, and which queries are read exactly.**
-/

namespace SimpleServer.Http

open Lib

variable {strings : RequestUriStrings} {fuel : ℕ} {map : ParsedSearchPath}

/-! ## Queries -/

/-- A parameter of a query, `key` or `key=value`. -/
structure SearchParam where
  key : Bytes
  value : Option Bytes
  key_clean : 0x26 ∉ key ∧ 0x3D ∉ key ∧ 0x23 ∉ key
  value_clean : ∀ v ∈ value, 0x26 ∉ v ∧ 0x23 ∉ v

namespace SearchParam

def text (param : SearchParam) : Bytes :=
  param.key ++ (param.value.map fun value => 0x3D :: value).getD []

/-- What the parameter means: without a '=' its value is empty. -/
def entry (param : SearchParam) : Bytes × Bytes := (param.key, param.value.getD [])

end SearchParam

variable {param : SearchParam} {params : List SearchParam}

/-- `k1=v1&...&kn=vn`. -/
def queryText : List SearchParam → Bytes
  | [] => []
  | [param] => param.text
  | param :: next :: params => param.text ++ 0x26 :: queryText (next :: params)

/-- The parameters without an empty one at the end. -/
def withoutEmptyEnd : List SearchParam → List SearchParam
  | [] => []
  | [param] => if param.text = [] then [] else [param]
  | param :: next :: params => param :: withoutEmptyEnd (next :: params)

theorem SearchParam.text_clean (param : SearchParam) :
    0x26 ∉ param.text ∧ 0x23 ∉ param.text := by
  have hkey := param.key_clean
  have hvalue := param.value_clean
  cases h : param.value with
  | none => simp [SearchParam.text, h, hkey.1, hkey.2.2]
  | some value => simp [SearchParam.text, h, hkey.1, hkey.2.2, hvalue value h]

theorem queryText_clean (params : List SearchParam) : 0x23 ∉ queryText params := by
  induction params with
  | nil => simp [queryText]
  | cons param params ih =>
    cases params with
    | nil => exact param.text_clean.2
    | cons next params => simp [queryText, param.text_clean.2, ih]

/-! ## One round -/

theorem splitOr_none (hlaw : strings.Lawful) {str : Bytes} {separator : UInt8}
    (h : separator ∉ str) : strings.splitOr str separator = (str, []) := by
  rw [UriStrings.splitOr, hlaw.split, splitFirst_eq_none_of_not_mem h]
  rfl

theorem splitOr_some (hlaw : strings.Lawful) {first : Bytes} {separator : UInt8}
    (h : separator ∉ first) (second : Bytes) :
    strings.splitOr (first ++ separator :: second) separator = (first, second) := by
  rw [UriStrings.splitOr, hlaw.split, splitFirst_append_cons h]
  rfl

theorem splitOr_param (hlaw : strings.Lawful) (param : SearchParam) :
    strings.splitOr param.text 0x3D = param.entry := by
  have hkey := param.key_clean.2.1
  unfold SearchParam.text SearchParam.entry
  cases param.value with
  | none =>
    have htext : param.key ++ (Option.map (fun value : Bytes => 0x3D :: value) none).getD [] =
        param.key := List.append_nil _
    rw [htext, splitOr_none hlaw hkey]
    rfl
  | some value => exact splitOr_some hlaw hkey value

theorem queryText_cons (hlaw : strings.Lawful) (param : SearchParam) (params : List SearchParam) :
    strings.splitOr (queryText (param :: params)) 0x26 = (param.text, queryText params) := by
  cases params with
  | nil => exact splitOr_none hlaw param.text_clean.1
  | cons next params => exact splitOr_some hlaw param.text_clean.1 _

theorem queryText_eq_nil : queryText params = [] ↔ withoutEmptyEnd params = [] := by
  match params with
  | [] => simp [queryText, withoutEmptyEnd]
  | [param] => simp [queryText, withoutEmptyEnd]
  | param :: next :: params => simp [queryText, withoutEmptyEnd]

theorem withoutEmptyEnd_cons (h : queryText (param :: params) ≠ []) :
    withoutEmptyEnd (param :: params) = param :: withoutEmptyEnd params := by
  cases params with
  | nil =>
    have htext : param.text ≠ [] := h
    simp [withoutEmptyEnd, htext]
  | cons next params => rfl

/-! ## The loop -/

/-- The map with one entry after the other. -/
def insertAll : List (Bytes × Bytes) → ParsedSearchPath → Option ParsedSearchPath
  | [], map => some map
  | (key, value) :: entries, map => (map.insert key value).bind (insertAll entries)

/-- **The entries of a query.** -/
theorem parseSearchParams_text (hlaw : strings.Lawful) (h : (queryText params).length ≤ fuel) :
    strings.parseSearchParams fuel (queryText params) map =
      insertAll ((withoutEmptyEnd params).map SearchParam.entry) map := by
  induction params generalizing fuel map with
  | nil => cases fuel <;> rfl
  | cons param params ih =>
    by_cases hempty : queryText (param :: params) = []
    · rw [queryText_eq_nil.1 hempty, hempty]
      cases fuel <;> rfl
    · have hsplit := queryText_cons hlaw param params
      have hpos : (queryText (param :: params)).length ≠ 0 := by
        simpa [List.length_eq_zero_iff] using hempty
      have hless := splitOr_length strings.toUriStrings _ 0x26 hpos
      rw [hsplit] at hless
      obtain ⟨fuel, rfl⟩ : ∃ n, fuel = n + 1 := ⟨fuel - 1, by omega⟩
      rw [UriStrings.parseSearchParams, if_neg hpos, hsplit]
      dsimp only
      rw [splitOr_param hlaw, withoutEmptyEnd_cons hempty, List.map_cons, insertAll]
      cases map.insert param.entry.1 param.entry.2 with
      | none => rfl
      | some map => exact ih (by dsimp only at hless; omega)

/-- Different new keys are all taken. -/
theorem insertAll_eq_some {entries : List (Bytes × Bytes)}
    (h : (map.keys ++ entries.map Prod.fst).Nodup) :
    ∃ map', insertAll entries map = some map' ∧ map'.entries = map.entries ++ entries := by
  induction entries generalizing map with
  | nil => exact ⟨map, rfl, (List.append_nil _).symm⟩
  | cons entry entries ih =>
    obtain ⟨key, value⟩ := entry
    have hnew : key ∉ map.keys := by
      intro hmem
      exact List.disjoint_of_nodup_append h hmem List.mem_cons_self
    obtain ⟨map', hinsert, hentries⟩ :
        ∃ map', map.insert key value = some map' ∧ map'.entries = map.entries ++ [(key, value)] :=
      ⟨_, dif_neg hnew, rfl⟩
    have hkeys : map'.keys ++ entries.map Prod.fst =
        map.keys ++ ((key, value) :: entries).map Prod.fst := by
      simp [ParsedSearchPath.keys, hentries]
    obtain ⟨map'', hall, hentries'⟩ := ih (hkeys ▸ h)
    refine ⟨map'', ?_, ?_⟩
    · rw [insertAll, hinsert, Option.bind_some, hall]
    · rw [hentries', hentries, List.append_assoc, List.singleton_append]

/-! ## Paths -/

/-- The fragment of a path, as it is written. -/
def fragmentText (fragment : Option Bytes) : Bytes :=
  (fragment.map fun fragment => 0x23 :: fragment).getD []

/-- A path, a query and a fragment. -/
def pathText (path : Bytes) (params : List SearchParam) (fragment : Option Bytes) : Bytes :=
  path ++ 0x3F :: (queryText params ++ fragmentText fragment)

theorem splitUrlPath_text (hlaw : strings.Lawful) {path : Bytes} (hpath : 0x3F ∉ path)
    (params : List SearchParam) (fragment : Option Bytes) :
    strings.splitUrlPath (pathText path params fragment) =
      (path, queryText params, fragment.getD []) := by
  have hquery := queryText_clean params
  rw [UriStrings.splitUrlPath, hlaw.split, pathText, splitFirst_append_cons hpath]
  cases fragment with
  | none =>
    have hnone := splitOr_none hlaw hquery
    simp [fragmentText, hnone]
  | some fragment =>
    have hsome := splitOr_some hlaw hquery fragment
    simp [fragmentText, hsome]

/-- The search path of the query maps each key to its value, and has no other key. -/
def ReadExactly (strings : RequestUriStrings) (path : Bytes) (params : List SearchParam)
    (fragment : Option Bytes) : Prop :=
  ∃ result, strings.parseUrlPath (pathText path params fragment) = some result ∧
    result.searchPath = params.map SearchParam.entry

theorem withoutEmptyEnd_sublist (params : List SearchParam) :
    (withoutEmptyEnd params).Sublist params := by
  match params with
  | [] => exact .slnil
  | [param] =>
    unfold withoutEmptyEnd
    split_ifs
    · exact List.nil_sublist _
    · exact List.Sublist.refl _
  | param :: next :: params => exact (withoutEmptyEnd_sublist (next :: params)).cons_cons param

/-- Nothing is left out if and only if the last parameter is not empty. -/
theorem withoutEmptyEnd_eq_self (params : List SearchParam) :
    withoutEmptyEnd params = params ↔ ∀ last ∈ params.getLast?, last.text ≠ [] := by
  match params with
  | [] => simp [withoutEmptyEnd]
  | [param] =>
    unfold withoutEmptyEnd
    split_ifs with hempty <;> simp [hempty]
  | param :: next :: params =>
    have hrest := withoutEmptyEnd_eq_self (next :: params)
    rw [withoutEmptyEnd, List.cons.injEq, hrest, List.getLast?_cons_cons]
    simp

theorem parseUrlPath_text (hlaw : strings.Lawful) {path : Bytes} (hpath : 0x3F ∉ path)
    (hkeys : (params.map SearchParam.key).Nodup) (fragment : Option Bytes) :
    strings.parseUrlPath (pathText path params fragment) =
      some ⟨path, (withoutEmptyEnd params).map SearchParam.entry, some (fragment.getD [])⟩ := by
  have hnodup : (ParsedSearchPath.empty.keys ++
      ((withoutEmptyEnd params).map SearchParam.entry).map Prod.fst).Nodup := by
    rw [List.map_map]
    exact hkeys.sublist ((withoutEmptyEnd_sublist params).map SearchParam.key)
  obtain ⟨map, hall, hentries⟩ := insertAll_eq_some hnodup
  rw [UriStrings.parseUrlPath, splitUrlPath_text hlaw hpath]
  dsimp only
  rw [parseSearchParams_text hlaw le_rfl, hall, Option.map_some, hentries]
  rfl

/-- A query with different keys is read exactly if and only if its last parameter is not empty. -/
theorem readExactly_iff (hlaw : strings.Lawful) {path : Bytes} (hpath : 0x3F ∉ path)
    (hkeys : (params.map SearchParam.key).Nodup) (fragment : Option Bytes) :
    ReadExactly strings path params fragment ↔
      ∀ last ∈ params.getLast?, last.text ≠ [] := by
  unfold ReadExactly
  rw [parseUrlPath_text hlaw hpath hkeys, ← withoutEmptyEnd_eq_self]
  constructor
  · rintro ⟨result, hresult, hentries⟩
    cases hresult
    have hlength := congrArg List.length hentries
    rw [List.length_map, List.length_map] at hlength
    exact (withoutEmptyEnd_sublist params).eq_of_length hlength
  · intro h
    exact ⟨_, rfl, by rw [h]⟩

/-! ## Targets -/

/-- The keys of the query in a request target. -/
def targetKeys (strings : RequestUriStrings) (target : Bytes) : List Bytes :=
  if target.head? = some 0x2F then strings.pathKeys target
  else
    match splitFirst schemeSeperator target with
    | none => []
    | some (_, view) =>
      match strings.parseAuthority view with
      | none => []
      | some (_, after) => strings.pathKeys after

theorem parseUrlPath_eq_none {path : Bytes} :
    strings.parseUrlPath path = none ↔ ¬ (strings.pathKeys path).Nodup := by
  rw [← parseUrlPath_isSome, Option.not_isSome_iff_eq_none]

theorem pathBehind_eq_none (hlaw : strings.Lawful) {rest : Bytes} :
    pathBehind strings rest = none ↔ ¬ (strings.pathKeys rest).Nodup := by
  rw [← pathBehind_isSome hlaw]
  cases pathBehind strings rest <;> simp

theorem parseUriOrAuthority_reachable (hlaw : strings.Lawful) {target : Bytes}
    (h : target.head? ≠ some 0x2F) :
    strings.parseUriOrAuthority target ≠ .unreachable ↔ (targetKeys strings target).Nodup := by
  rw [targetKeys, if_neg h]
  cases hsplit : splitFirst schemeSeperator target with
  | none =>
    rw [RequestUriStrings.parseUriOrAuthority, hlaw.splitText, hsplit]
    dsimp only
    cases strings.parseAuthority target with
    | none => simp
    | some result =>
      dsimp only
      split_ifs <;> simp
  | some parts =>
    obtain ⟨scheme, view⟩ := parts
    have hscheme := splitFirst_before (by decide) hsplit
    rw [splitFirst_eq_some hsplit, parseUriOrAuthority_scheme hlaw hscheme]
    dsimp only
    cases strings.parseAuthority view with
    | none => simp
    | some result =>
      dsimp only
      cases hpath : pathBehind strings result.2 with
      | none => simpa using (pathBehind_eq_none hlaw).1 hpath
      | some path => simpa using (pathBehind_isSome hlaw).1 ⟨path, hpath⟩

theorem parseRequestUri_reachable (hlaw : strings.Lawful) (target : Bytes) :
    strings.parseRequestUri target ≠ .unreachable ↔ (targetKeys strings target).Nodup := by
  cases target with
  | nil => simp [RequestUriStrings.parseRequestUri, targetKeys, splitFirst, schemeSeperator, ascii]
  | cons c target =>
    by_cases hslash : c = 0x2F
    · subst hslash
      rw [RequestUriStrings.parseRequestUri, if_neg (by simp), if_neg (by simp), if_pos (by simp),
        targetKeys, if_pos List.head?_cons, ← parseUrlPath_isSome]
      cases strings.parseUrlPath (0x2F :: target) <;> simp
    · have hhead : (c :: target).head? ≠ some 0x2F := by simpa using hslash
      by_cases hstar : (c :: target).length = 1 ∧ (c :: target).headD 0 = 0x2A
      · have htarget : c :: target = [0x2A] := by
          simpa [and_comm] using hstar
        have hkeys : targetKeys strings [0x2A] = [] := by
          simp [targetKeys, splitFirst, schemeSeperator, ascii]
        rw [RequestUriStrings.parseRequestUri, if_neg (by simp), if_pos hstar, htarget, hkeys]
        simp
      · rw [← parseUriOrAuthority_reachable hlaw hhead, RequestUriStrings.parseRequestUri,
          if_neg (by simp), if_neg hstar, if_neg (by simpa using hslash)]

/-- **A target or a path ends the program** if and only if a key of its query comes twice. A query
with different keys is read exactly if and only if its last parameter is not empty. -/
theorem requestTargets_iff (hlaw : strings.Lawful) :
    (∀ target, strings.parseRequestUri target ≠ .unreachable ↔
      (targetKeys strings target).Nodup) ∧
    (∀ path, strings.parseUrlPath path ≠ none ↔ (strings.pathKeys path).Nodup) ∧
    ∀ path params fragment, 0x3F ∉ path → (params.map SearchParam.key).Nodup →
      (ReadExactly strings path params fragment ↔ ∀ last ∈ params.getLast?, last.text ≠ []) := by
  refine ⟨parseRequestUri_reachable hlaw, ?_, ?_⟩
  · intro path
    rw [Ne, parseUrlPath_eq_none, not_not]
  · intro path params fragment hpath hkeys
    exact readExactly_iff hlaw hpath hkeys fragment

/-- A key alone, and a value with a '='. -/
theorem requestTargets_query :
    RequestUriStrings.plain.parseRequestUri (ascii "/?a&b=c=d") ≠ .unreachable ∧
      RequestUriStrings.plain.parseUrlPath (ascii "/?a&b=c=d") ≠ none ∧
      ReadExactly .plain (ascii "/")
        [⟨ascii "a", none, by decide, nofun⟩,
          ⟨ascii "b", some (ascii "c=d"), by decide, by rintro _ ⟨⟩; decide⟩] none := by
  obtain ⟨htarget, hpath, hquery⟩ := requestTargets_iff RequestUriStrings.plain_lawful
  refine ⟨(htarget _).2 (by decide), (hpath _).2 (by decide), ?_⟩
  apply (hquery _ _ _ (by decide) (by decide)).2
  intro last hlast
  cases hlast
  decide

/-- One key twice. -/
theorem keyTwice_unreachable :
    RequestUriStrings.plain.parseRequestUri (ascii "/?a=1&a=2") = .unreachable := by decide

end SimpleServer.Http
