import SimpleServer.Utils.Bytes

/-!
# Authorities and paths (`uri.c`)

`parse_authority` and `parse_url_path`. The search parameters of a path go into a map that
takes each key once; a second parameter with the same key ends the program. The functions of
the string library are a parameter (`UriStrings`). Memory is found.

* `parseSearchParams_isSome`: when all search parameters are taken.
-/

namespace SimpleServer.Http

/-- `tstr_split`, at the first separator, and `tstr_view_to_int`. -/
structure UriStrings where
  tstrSplit : Bytes → UInt8 → Option (Bytes × Bytes)
  tstrSplit_eq : ∀ str separator first second, tstrSplit str separator = some (first, second) →
    str = first ++ separator :: second
  tstrViewToInt : Bytes → Option ℤ

/-- Strings as lists of bytes, and decimal numbers. -/
def UriStrings.plain : UriStrings where
  tstrSplit str separator :=
    if str.idxOf separator < str.length then
      some (str.take (str.idxOf separator), str.drop (str.idxOf separator + 1))
    else none
  tstrSplit_eq := by
    intro str separator first second h
    split_ifs at h with hlt
    obtain ⟨rfl, rfl⟩ := Prod.mk.inj (Option.some.inj h)
    have hhead : str[str.idxOf separator] = separator := List.getElem_idxOf hlt
    calc str = str.take (str.idxOf separator) ++ str.drop (str.idxOf separator) :=
          (List.take_append_drop _ _).symm
      _ = _ := by rw [List.drop_eq_getElem_cons hlt, hhead]
  tstrViewToInt value :=
    if value ≠ [] ∧ value.all (fun c => 0x30 ≤ c ∧ c ≤ 0x39) then
      some (value.foldl (fun (result : ℤ) c => result * 10 + (c.toNat - 0x30)) 0)
    else none

/-! ## The path -/

/-- `ParsedSearchPathHashMap`, with its entries in the order of insertion. -/
structure ParsedSearchPath where
  entries : List (Bytes × Bytes)
  distinct : (entries.map Prod.fst).Nodup
deriving Repr, DecidableEq

namespace ParsedSearchPath

def empty : ParsedSearchPath := ⟨[], List.nodup_nil⟩

def keys (map : ParsedSearchPath) : List Bytes := map.entries.map Prod.fst

theorem keys_nodup (map : ParsedSearchPath) : map.keys.Nodup := map.distinct

/-- `TMAP_INSERT` without overwriting, `none` where it would overwrite. -/
def insert (map : ParsedSearchPath) (key value : Bytes) : Option ParsedSearchPath :=
  if h : key ∈ map.keys then none
  else some ⟨map.entries ++ [(key, value)], by
    rw [List.map_append]
    exact List.nodup_append_comm.1 (List.nodup_cons.2 ⟨h, map.distinct⟩)⟩

theorem insert_of_mem {map : ParsedSearchPath} {key : Bytes} (h : key ∈ map.keys)
    (value : Bytes) : map.insert key value = none := dif_pos h

theorem insert_of_not_mem {map : ParsedSearchPath} {key : Bytes} (h : key ∉ map.keys)
    (value : Bytes) :
    ∃ map', map.insert key value = some map' ∧ map'.keys = map.keys ++ [key] := by
  refine ⟨_, dif_neg h, ?_⟩
  simp [keys]

end ParsedSearchPath

/-- `ParsedURLPath`. -/
structure ParsedURLPath where
  path : Bytes
  searchPath : List (Bytes × Bytes)
  fragment : Option Bytes
deriving Repr, DecidableEq

namespace UriStrings

variable (strings : UriStrings)

/-- What stands before the separator and behind it; without a separator everything is before. -/
def splitOr (str : Bytes) (separator : UInt8) : Bytes × Bytes :=
  (strings.tstrSplit str separator).getD (str, [])

/-- The loop over the search parameters; `fuel` is the number of bytes that are left. `none` is
`UNREACHABLE`. -/
def parseSearchParams : ℕ → Bytes → ParsedSearchPath → Option ParsedSearchPath
  | 0, _, map => some map
  | fuel + 1, searchParams, map =>
    if searchParams.length = 0 then some map
    else
      let (currentValue, searchParams) := strings.splitOr searchParams 0x26
      let (key, value) := strings.splitOr currentValue 0x3D
      match map.insert key value with
      | none => none
      | some map => parseSearchParams fuel searchParams map

/-- The keys of the search parameters. -/
def searchKeys : ℕ → Bytes → List Bytes
  | 0, _ => []
  | fuel + 1, searchParams =>
    if searchParams.length = 0 then []
    else
      let (currentValue, searchParams) := strings.splitOr searchParams 0x26
      (strings.splitOr currentValue 0x3D).1 :: searchKeys fuel searchParams

/-- The path, the search parameters and the fragment of a path. Without search parameters the
fragment is cut from the path. -/
def splitUrlPath (path : Bytes) : Bytes × Bytes × Bytes :=
  match strings.tstrSplit path 0x3F with
  | none =>
    let (pathView, fragmentView) := strings.splitOr path 0x23
    (pathView, [], fragmentView)
  | some (pathView, second) => (pathView, strings.splitOr second 0x23)

/-- `parse_url_path`. -/
def parseUrlPath (path : Bytes) : Option ParsedURLPath :=
  let (pathView, searchPath, fragmentView) := strings.splitUrlPath path
  (strings.parseSearchParams searchPath.length searchPath .empty).map fun map =>
    ⟨pathView, map.entries, some fragmentView⟩

/-- The keys of the search parameters of a path. -/
def pathKeys (path : Bytes) : List Bytes :=
  strings.searchKeys (strings.splitUrlPath path).2.1.length (strings.splitUrlPath path).2.1

end UriStrings

/-! ## The authority -/

structure URIUserInfo where
  username : Option Bytes
  password : Option Bytes
deriving Repr, DecidableEq

structure ParsedAuthority where
  userInfo : URIUserInfo
  host : Bytes
  port : UInt16
deriving Repr, DecidableEq

/-- `find_authority_split`: up to the first slash, question mark or number sign. -/
def findAuthoritySplit (str : Bytes) : Bytes × Bytes :=
  str.span fun val => ¬ (val = 0x2F ∨ val = 0x3F ∨ val = 0x23)

namespace UriStrings

variable (strings : UriStrings)

def parseUserInfo (userinfo : Bytes) : URIUserInfo :=
  match strings.tstrSplit userinfo 0x3A with
  | none => ⟨some userinfo, none⟩
  | some (username, password) => ⟨some username, some password⟩

def parseU16 (toParse : Bytes) : Option UInt16 :=
  match strings.tstrViewToInt toParse with
  | none => none
  | some result =>
    if result < 0 then none
    else if result > 65535 then none
    else some (UInt16.ofNat result.toNat)

/-- `parse_authority`, with what is left after the authority. -/
def parseAuthority (str : Bytes) : Option (ParsedAuthority × Bytes) :=
  let (userInfo, currentView) : URIUserInfo × Bytes :=
    match strings.tstrSplit str 0x40 with
    | none => (⟨none, none⟩, str)
    | some (userinfo, rest) => (strings.parseUserInfo userinfo, rest)
  match strings.tstrSplit currentView 0x3A with
  | some (host, second) =>
    let (port, after) := findAuthoritySplit second
    (strings.parseU16 port).map fun port => (⟨userInfo, host, port⟩, after)
  | none =>
    let (host, after) := findAuthoritySplit currentView
    some (⟨userInfo, host, 0⟩, after)

end UriStrings

/-! ## Which paths are taken -/

section

variable (strings : UriStrings)

theorem splitOr_length (str : Bytes) (separator : UInt8) (h : str.length ≠ 0) :
    (strings.splitOr str separator).2.length < str.length := by
  unfold UriStrings.splitOr
  cases hsplit : strings.tstrSplit str separator with
  | none =>
    rw [Option.getD_none, List.length_nil]
    omega
  | some parts =>
    have hstr := strings.tstrSplit_eq _ _ _ _ hsplit
    rw [Option.getD_some, hstr, List.length_append, List.length_cons]
    omega

/-- The loop ends before its fuel does. -/
theorem parseSearchParams_fuel {fuel fuel' : ℕ} {searchParams : Bytes} (map : ParsedSearchPath)
    (h : searchParams.length ≤ fuel) (h' : searchParams.length ≤ fuel') :
    strings.parseSearchParams fuel searchParams map =
      strings.parseSearchParams fuel' searchParams map := by
  induction fuel generalizing fuel' searchParams map with
  | zero =>
    have hend : searchParams.length = 0 := by omega
    cases fuel' with
    | zero => rfl
    | succ fuel' => simp [UriStrings.parseSearchParams, hend]
  | succ fuel ih =>
    cases fuel' with
    | zero =>
      have hend : searchParams.length = 0 := by omega
      simp [UriStrings.parseSearchParams, hend]
    | succ fuel' =>
      unfold UriStrings.parseSearchParams
      by_cases hend : searchParams.length = 0
      · rw [if_pos hend, if_pos hend]
      · rw [if_neg hend, if_neg hend]
        have hless := splitOr_length strings searchParams 0x26 hend
        dsimp only
        split
        · rfl
        · exact ih _ (by omega) (by omega)

/-- **All search parameters are taken** if and only if their keys are new and pairwise
different. -/
theorem parseSearchParams_isSome (fuel : ℕ) (searchParams : Bytes) (map : ParsedSearchPath) :
    (strings.parseSearchParams fuel searchParams map).isSome ↔
      (map.keys ++ strings.searchKeys fuel searchParams).Nodup := by
  induction fuel generalizing searchParams map with
  | zero => simpa [UriStrings.parseSearchParams, UriStrings.searchKeys] using map.keys_nodup
  | succ fuel ih =>
    unfold UriStrings.parseSearchParams UriStrings.searchKeys
    by_cases hend : searchParams.length = 0
    · simpa [hend] using map.keys_nodup
    · rw [if_neg hend, if_neg hend]
      dsimp only
      generalize strings.splitOr (strings.splitOr searchParams 0x26).1 0x3D = argument
      by_cases hmem : argument.1 ∈ map.keys
      · rw [ParsedSearchPath.insert_of_mem hmem]
        have hdouble : ¬ (map.keys ++ argument.1 ::
            strings.searchKeys fuel (strings.splitOr searchParams 0x26).2).Nodup := by
          intro hnodup
          exact List.disjoint_of_nodup_append hnodup hmem List.mem_cons_self
        simp [hdouble]
      · obtain ⟨map', hinsert, hkeys⟩ := ParsedSearchPath.insert_of_not_mem hmem argument.2
        rw [hinsert]
        dsimp only
        rw [ih, hkeys, List.append_assoc, List.singleton_append]

theorem parseUrlPath_isSome (path : Bytes) :
    (strings.parseUrlPath path).isSome ↔ (strings.pathKeys path).Nodup := by
  unfold UriStrings.parseUrlPath UriStrings.pathKeys
  dsimp only
  rw [Option.isSome_map, parseSearchParams_isSome]
  rfl

end

end SimpleServer.Http
