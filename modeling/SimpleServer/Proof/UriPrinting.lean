import SimpleServer.Proof.PathPrinting
import SimpleServer.Proof.UriBoundaries

/-!
# Printing a request URI and parsing it again

The printer drops a password and writes a ':' where there is none, so that no user information
comes back. What it writes of the host and of the path is cut again as any other text.

* `parse_printedAuthority`: which authorities come back, and in front of which paths.
* `uriRoundTrips_iff`: **which request URIs come back.**
-/

namespace SimpleServer.Http

open Lib

variable {strings : RequestUriStrings} {order : SearchPathOrder} {str view after rest : Bytes}
variable {authority : ParsedAuthority} {path : ParsedURLPath} {uri : ParsedURI}

/-- The same request URI, whatever the order of the search parameters. -/
inductive SameUri : ParsedRequestURI → ParsedRequestURI → Prop
  | asterisk : SameUri .asterisk .asterisk
  | absoluteURI {uri uri' : ParsedURI} (hscheme : uri.scheme = uri'.scheme)
    (hauthority : uri.authority = uri'.authority) (hpath : SamePath uri.path uri'.path) :
    SameUri (.absoluteURI uri) (.absoluteURI uri')
  | absPath {path path' : ParsedURLPath} (h : SamePath path path') :
    SameUri (.absPath path) (.absPath path')
  | authority (authority : ParsedAuthority) : SameUri (.authority authority) (.authority authority)

/-- What is printed is parsed as the same request URI. -/
def RoundTrips (strings : RequestUriStrings) (order : SearchPathOrder) (uri : ParsedRequestURI) :
    Prop :=
  ∃ uri', strings.parseRequestUri (getRequestUriAsString order uri) = .ok uri' ∧ SameUri uri' uri

/-! ## Which request URIs come back -/

/-- An authority without user information, without a zero byte, and without a byte that ends it
where no port is printed. -/
structure PrintableAuthority (authority : ParsedAuthority) : Prop where
  userInfo : authority.userInfo = ⟨none, none⟩
  host : 0 ∉ authority.host
  noPort : authority.port = 0 → Unended authority.host

/-- An absolute URI with a path that is printed, and without a ':' in it where no port is
printed. -/
structure PrintableAbsolute (uri : ParsedURI) : Prop where
  scheme : 0 ∉ uri.scheme
  authority : PrintableAuthority uri.authority
  path : PrintablePath uri.path
  present : uri.path.path ≠ [] ∨ uri.path.searchPath ≠ []
  noPort : uri.authority.port = 0 → 0x3A ∉ uri.path.path ∧
    ∀ entry ∈ uri.path.searchPath, 0x3A ∉ entry.1 ∧ 0x3A ∉ entry.2

/-- The request URIs that come back. -/
def PrintableUri : ParsedRequestURI → Prop
  | .asterisk => True
  | .absoluteURI uri => PrintableAbsolute uri
  | .absPath path => PrintablePath path
  | .authority authority => PrintableAuthority authority ∧
      (authority.port = 0 → authority.host ≠ [] ∧ authority.host ≠ ascii "*")

/-! ## Authorities -/

/-- The separators that the parser took out of the parts of an authority. -/
structure CleanAuthority (authority : ParsedAuthority) : Prop where
  host : 0x3A ∉ authority.host
  user : ∀ user ∈ authority.userInfo.username, 0x40 ∉ user ∧ 0x3A ∉ user
  noUser : authority.userInfo.username = none →
    authority.userInfo.password = none ∧ 0x40 ∉ authority.host

theorem CutHost.parts {host : Bytes} {port : UInt16} (h : CutHost strings view host port after) :
    0x3A ∉ host ∧ StartsRest after ∧ host ⊆ view ∧ after ⊆ view := by
  cases h with
  | noPort h _ hafter =>
    rw [List.mem_append, not_or] at h
    exact ⟨h.1, hafter, List.subset_append_left _ _, List.subset_append_right _ _⟩
  | port h _ hafter =>
    refine ⟨h, hafter, List.subset_append_left _ _, ?_⟩
    intro c hc
    simp [hc]

theorem parseAuthority_clean (hlaw : strings.Lawful)
    (h : strings.parseAuthority str = some (authority, after)) :
    CleanAuthority authority ∧ StartsRest after ∧
      (authority.userInfo.username = none → 0x40 ∉ str ∧ authority.host ⊆ str ∧ after ⊆ str) := by
  obtain ⟨view, hinfo, hcut⟩ := (parseAuthority_iff hlaw).1 h
  obtain ⟨hcolon, hafter, hhost, hsub⟩ := hcut.parts
  obtain ⟨userInfo, host, port⟩ := authority
  dsimp only at hinfo hcolon hhost hafter
  cases hinfo with
  | absent hnot =>
    exact ⟨⟨hcolon, nofun, fun _ => ⟨rfl, fun hmem => hnot (hhost hmem)⟩⟩, hafter,
      fun _ => ⟨hnot, hhost, hsub⟩⟩
  | @present userinfo view hat =>
    refine ⟨⟨hcolon, ?_, fun hnone => absurd hnone (parseUserInfo_username _)⟩, hafter,
      fun hnone => absurd hnone (parseUserInfo_username _)⟩
    intro user huser
    have hinfo : strings.parseUserInfo userinfo =
        ⟨some user, (strings.parseUserInfo userinfo).password⟩ := by rw [← Option.mem_def.1 huser]
    obtain ⟨hnot, htext⟩ := (parseUserInfo_iff hlaw).1 hinfo
    refine ⟨?_, hnot⟩
    intro hmem
    apply hat
    rw [htext]
    unfold userInfoText
    split
    · exact hmem
    · exact List.mem_append_left _ hmem

/-- What is printed of a port. -/
def portAsString (port : UInt16) : Bytes :=
  if port ≠ 0 then 0x3A :: decimalText port.toNat else []

theorem parseU16_decimalText (hlaw : strings.Lawful) (port : UInt16) :
    strings.parseU16 (decimalText port.toNat) = some port := by
  have hvalue := decimalValue_decimalText port.toNat
  have hsmall : decimalValue (decimalText port.toNat) < 65536 := by
    rw [hvalue]
    exact port.toNat_lt
  rw [parseU16_decimal hlaw (decimalText_decimal _) hsmall, hvalue, UInt16.ofNat_toNat]

theorem portAsString_notMem {c : UInt8} (h : ¬ IsDigit c) (hcolon : c ≠ 0x3A) (port : UInt16) :
    c ∉ portAsString port := by
  unfold portAsString
  split_ifs
  · simp [hcolon, decimalText_notMem h]
  · exact List.not_mem_nil

/-- The text of a host and a port. -/
theorem authorityAsString_none (h : authority.userInfo.username = none) :
    getParsedAuthorityAsString authority =
      tstrCstr authority.host ++ portAsString authority.port := by
  unfold getParsedAuthorityAsString
  rw [h]
  rfl

/-- The text of a user, a host and a port: a ':' stands there if there is no password. -/
theorem authorityAsString_some {user : Bytes} (h : authority.userInfo.username = some user) :
    getParsedAuthorityAsString authority =
      tstrCstr user ++ (if authority.userInfo.password = none then [0x3A] else []) ++
        0x40 :: (tstrCstr authority.host ++ portAsString authority.port) := by
  unfold getParsedAuthorityAsString
  rw [h]
  dsimp only
  by_cases hnone : authority.userInfo.password = none
  · rw [if_pos hnone, if_pos hnone, hnone]
    simp [ascii, tstrCstr, portAsString]
  · rw [if_neg hnone, if_neg hnone]
    simp [ascii, portAsString]

theorem zero_notMem_authority (authority : ParsedAuthority) :
    0 ∉ getParsedAuthorityAsString authority := by
  have hport : 0 ∉ portAsString authority.port := portAsString_notMem (by decide) (by decide) _
  have hhost := zero_notMem_tstrCstr authority.host
  cases husername : authority.userInfo.username with
  | none => simp [authorityAsString_none husername, hhost, hport]
  | some user =>
    have huser := zero_notMem_tstrCstr user
    rw [authorityAsString_some husername]
    split_ifs <;> simp [huser, hhost, hport]

/-- No user information comes back. -/
theorem printedUser_changed (hlaw : strings.Lawful) (hclean : CleanAuthority authority)
    {user : Bytes} (h : authority.userInfo.username = some user) :
    strings.parseAuthority (getParsedAuthorityAsString authority ++ rest) ≠
      some (authority, after) := by
  obtain ⟨hat, hcolon⟩ := hclean.user user h
  have hat' : 0x40 ∉ tstrCstr user := fun hmem => hat (tstrCstr_subset _ hmem)
  have hcolon' : 0x3A ∉ tstrCstr user := fun hmem => hcolon (tstrCstr_subset _ hmem)
  intro hparse
  rw [authorityAsString_some h, List.append_assoc, List.cons_append] at hparse
  split_ifs at hparse with hnone
  · have hnot : 0x40 ∉ tstrCstr user ++ [0x3A] := by simp [hat']
    rw [parseAuthority_some hlaw hnot, parseUserInfo_some hlaw hcolon'] at hparse
    have hinfo := (cutHost_of_parseHost hlaw hparse).1
    rw [hinfo] at hnone
    cases hnone
  · rw [List.append_nil, parseAuthority_some hlaw hat', parseUserInfo_none hlaw hcolon'] at hparse
    have hinfo := (cutHost_of_parseHost hlaw hparse).1
    rw [hinfo] at hnone
    exact hnone rfl

variable (after) in
/-- A host and a port in front of a path. -/
theorem cutHost_printed_iff (hlaw : strings.Lawful) {host : Bytes} {port : UInt16}
    (hhost : 0x3A ∉ host) (hrest : StartsRest rest) :
    CutHost strings (host ++ (portAsString port ++ rest)) host port after ↔
      (port = 0 → Unended host ∧ 0x3A ∉ rest) ∧ after = rest := by
  by_cases hport : port = 0
  · have htext : portAsString port = [] := if_neg (not_not.2 hport)
    rw [htext, List.nil_append]
    constructor
    · intro hcut
      generalize hview : host ++ rest = view at hcut
      cases hcut with
      | noPort h hunended =>
        obtain rfl := List.append_cancel_left hview
        rw [List.mem_append, not_or] at h
        exact ⟨fun _ => ⟨hunended, h.2⟩, rfl⟩
      | port => exact absurd (List.append_cancel_left hview) (not_startsRest_colon hrest)
    · rintro ⟨h, rfl⟩
      obtain ⟨hunended, hcolon⟩ := h hport
      rw [hport]
      apply CutHost.noPort
      · rw [List.mem_append, not_or]
        exact ⟨hhost, hcolon⟩
      · exact hunended
      · exact hrest
  · have htext : portAsString port = 0x3A :: decimalText port.toNat := if_pos hport
    have hunended : Unended (decimalText port.toNat) := by
      intro c hc hend
      have hdigit := (decimalText_decimal _).digits c hc
      rcases hend with rfl | rfl | rfl <;> exact absurd hdigit (by decide)
    rw [htext, List.cons_append]
    constructor
    · intro hcut
      generalize hview : host ++ 0x3A :: (decimalText port.toNat ++ rest) = view at hcut
      refine ⟨fun hzero => absurd hzero hport, ?_⟩
      cases hcut with
      | noPort h =>
        rw [← hview] at h
        simp at h
      | port h htext hafter =>
        have htail := (List.cons.inj (List.append_cancel_left hview)).2
        exact (unended_append_inj htail hunended htext hrest hafter).2.symm
    · rintro ⟨-, rfl⟩
      exact .port hhost hunended hrest (parseU16_decimalText hlaw port)

variable (after rest) in
/-- **Which authorities come back**, in front of which paths. -/
theorem parse_printedAuthority (hlaw : strings.Lawful) (hclean : CleanAuthority authority)
    (hrest : StartsRest rest) (hzero : 0 ∉ rest)
    (hat : authority.userInfo.username = none → 0x40 ∉ rest) :
    strings.parseAuthority (getParsedAuthorityAsString authority ++ rest) =
        some (authority, after) ↔
      PrintableAuthority authority ∧ (authority.port = 0 → 0x3A ∉ rest) ∧ after = rest := by
  cases husername : authority.userInfo.username with
  | some user =>
    refine iff_of_false (printedUser_changed hlaw hclean husername) ?_
    rintro ⟨hprintable, -⟩
    rw [hprintable.userInfo] at husername
    cases husername
  | none =>
    obtain ⟨hpassword, hhostAt⟩ := hclean.noUser husername
    have hinfo : authority.userInfo = ⟨none, none⟩ := by
      cases hinfo : authority.userInfo with
      | mk username password =>
        rw [hinfo] at husername hpassword
        rw [show username = none from husername, show password = none from hpassword]
    have hport : 0x40 ∉ portAsString authority.port :=
      portAsString_notMem (by decide) (by decide) _
    have hnot : 0x40 ∉ tstrCstr authority.host ++ (portAsString authority.port ++ rest) := by
      have hhost : 0x40 ∉ tstrCstr authority.host := fun hmem => hhostAt (tstrCstr_subset _ hmem)
      simp [hhost, hport, hat husername]
    rw [authorityAsString_none husername, List.append_assoc]
    constructor
    · intro hparse
      have hhost : 0 ∉ authority.host := by
        have hsub := ((parseAuthority_clean hlaw hparse).2.2 husername).2.1
        have hport : 0 ∉ portAsString authority.port :=
          portAsString_notMem (by decide) (by decide) _
        intro hmem
        simpa [zero_notMem_tstrCstr, hport, hzero] using hsub hmem
      rw [parseAuthority_none hlaw hnot, tstrCstr_eq_self hhost] at hparse
      obtain ⟨-, hcut⟩ := cutHost_of_parseHost hlaw hparse
      obtain ⟨hnoPort, hafter⟩ := (cutHost_printed_iff _ hlaw hclean.host hrest).1 hcut
      exact ⟨⟨hinfo, hhost, fun h => (hnoPort h).1⟩, fun h => (hnoPort h).2, hafter⟩
    · rintro ⟨hprintable, hcolon, hafter⟩
      have hcut := (cutHost_printed_iff after hlaw hclean.host hrest).2
        ⟨fun h => ⟨hprintable.noPort h, hcolon h⟩, hafter⟩
      rw [parseAuthority_none hlaw hnot, tstrCstr_eq_self hprintable.host,
        parseHost_of_cutHost hlaw hcut, ← hinfo]

/-! ## Paths behind an authority -/

/-- What is printed of a path that stands behind an authority stands there too. -/
theorem startsRest_printed (hafter : StartsRest str)
    (htail : ∃ tail, str = path.path ++ tail ∧ ∀ c ∈ tail.head?, c = 0x3F ∨ c = 0x23) :
    StartsRest (getParsedUrlAsString order path) := by
  obtain ⟨tail, rfl, -⟩ := htail
  intro c hc
  unfold getParsedUrlAsString at hc
  cases hpath : path.path with
  | nil =>
    rw [hpath] at hc
    split_ifs at hc
    · cases hc
    · cases hc
      decide
  | cons first rest =>
    rw [hpath] at hafter hc
    have hfirst : EndsAuthority first := hafter first rfl
    have hne : first ≠ 0 := by
      rintro rfl
      exact absurd hfirst (by decide)
    simp [tstrCstr, hne] at hc
    rwa [← hc]

theorem zero_notMem_path (path : ParsedURLPath) : 0 ∉ getParsedUrlAsString order path := by
  have hpath := zero_notMem_tstrCstr path.path
  have hentries : ∀ entry ∈ order.iterate path.searchPath, 0 ∉ entryAsString entry := by
    intro entry hentry
    have hkey := zero_notMem_tstrCstr entry.1
    have hvalue := zero_notMem_tstrCstr entry.2
    unfold entryAsString
    split_ifs <;> simp [ascii, hkey, hvalue]
  unfold getParsedUrlAsString
  rw [searchPathAsString_eq]
  split_ifs
  · simpa using hpath
  · have hquery : 0 ∉ (order.iterate path.searchPath).flatMap entryAsString := by
      intro hmem
      obtain ⟨entry, hentry, hmem⟩ := List.mem_flatMap.1 hmem
      exact hentries entry hentry hmem
    simp [ascii, hpath, hquery]

/-- A byte of what is printed is one of the path, or a separator. -/
theorem mem_printedPath {c : UInt8} (h : c ∈ getParsedUrlAsString order path) :
    c ∈ path.path ∨ c = 0x3F ∨ c = 0x3D ∨
      ∃ entry ∈ path.searchPath, c ∈ entry.1 ∨ c ∈ entry.2 := by
  unfold getParsedUrlAsString at h
  rw [searchPathAsString_eq] at h
  rcases List.mem_append.1 h with hpath | hquery
  · exact .inl (tstrCstr_subset _ hpath)
  · split_ifs at hquery
    · cases hquery
    · rcases List.mem_append.1 hquery with hmark | hentries
      · exact .inr (.inl (by simpa [ascii] using hmark))
      · obtain ⟨entry, hentry, hc⟩ := List.mem_flatMap.1 hentries
        have hmem := (order.perm _).mem_iff.1 hentry
        have hparts := entryAsString_subset entry hc
        rw [List.mem_append, List.mem_cons] at hparts
        rcases hparts with hkey | hequals | hvalue
        · exact .inr (.inr (.inr ⟨entry, hmem, .inl hkey⟩))
        · exact .inr (.inr (.inl hequals))
        · exact .inr (.inr (.inr ⟨entry, hmem, .inr hvalue⟩))

variable (order) in
/-- A printable path is printed with all its bytes. -/
theorem subset_printedPath (h : PrintablePath path) :
    path.path ⊆ getParsedUrlAsString order path ∧
      ∀ entry ∈ path.searchPath, entry.1 ⊆ getParsedUrlAsString order path ∧
        entry.2 ⊆ getParsedUrlAsString order path := by
  obtain ⟨path, entries, fragment⟩ := path
  obtain ⟨hzero, -, hentries⟩ := h
  dsimp only at hzero hentries
  unfold getParsedUrlAsString
  rw [searchPathAsString_eq, tstrCstr_eq_self hzero]
  refine ⟨List.subset_append_left _ _, ?_⟩
  cases hentries with
  | none => nofun
  | @single key value hkey hvalue =>
    intro entry hentry
    obtain rfl := List.mem_singleton.1 hentry
    dsimp only
    rw [iterate_singleton, List.flatMap_singleton, entryAsString, tstrCstr_eq_self hkey,
      tstrCstr_eq_self hvalue]
    refine ⟨fun c hc => by simp [hc], ?_⟩
    intro c hc
    have hne : value.length ≠ 0 := by
      intro hlength
      rw [List.length_eq_zero_iff.1 hlength] at hc
      cases hc
    simp [hc, hne]

/-- The ':' in what is printed of a printable path. -/
theorem colon_printedPath (h : PrintablePath path) :
    0x3A ∉ getParsedUrlAsString order path ↔
      0x3A ∉ path.path ∧ ∀ entry ∈ path.searchPath, 0x3A ∉ entry.1 ∧ 0x3A ∉ entry.2 := by
  obtain ⟨hpath, hentries⟩ := subset_printedPath order h
  constructor
  · intro hnot
    refine ⟨fun hmem => hnot (hpath hmem), ?_⟩
    intro entry hentry
    obtain ⟨hkey, hvalue⟩ := hentries entry hentry
    exact ⟨fun hmem => hnot (hkey hmem), fun hmem => hnot (hvalue hmem)⟩
  · rintro ⟨hnot, hnots⟩ hmem
    rcases mem_printedPath hmem with hin | hmark | hequals | ⟨entry, hentry, hin⟩
    · exact hnot hin
    · cases hmark
    · cases hequals
    · exact hin.elim (hnots entry hentry).1 (hnots entry hentry).2

theorem printedPath_eq_nil :
    getParsedUrlAsString order path = [] ↔ tstrCstr path.path = [] ∧ path.searchPath = [] := by
  unfold getParsedUrlAsString
  rw [List.append_eq_nil_iff]
  split_ifs with hempty
  · simpa using fun _ => hempty
  · have hne : path.searchPath ≠ [] := by simpa using hempty
    simp [ascii, hne]

variable (order) in
/-- The path behind an authority comes back if and only if it is printable and is printed at
all. -/
theorem pathBehind_iff (hlaw : strings.Lawful) (hclean : CleanPath path) :
    (∃ path', pathBehind strings (getParsedUrlAsString order path) = some path' ∧
      SamePath path' path) ↔
      PrintablePath path ∧ (path.path ≠ [] ∨ path.searchPath ≠ []) := by
  unfold pathBehind
  by_cases hempty : getParsedUrlAsString order path = []
  · rw [if_pos hempty]
    obtain ⟨hnil, hentries⟩ := printedPath_eq_nil.1 hempty
    constructor
    · rintro ⟨path', hpath', hsame⟩
      cases hpath'
      rw [← hsame.path] at hnil
      exact absurd hnil (by decide)
    · rintro ⟨hprintable, hpresent⟩
      rw [tstrCstr_eq_self hprintable.path] at hnil
      rcases hpresent with hpath | hsearch
      · exact absurd hnil hpath
      · exact absurd hentries hsearch
  · rw [if_neg hempty, pathRoundTrips_iff _ hlaw hclean, iff_self_and]
    intro hprintable
    rw [printedPath_eq_nil, tstrCstr_eq_self hprintable.path, not_and_or] at hempty
    exact hempty

/-! ## The four kinds -/

/-- What the parser saw of an absolute URI. -/
structure SeenAbsolute (strings : RequestUriStrings) (uri : ParsedURI) : Prop where
  scheme : ¬ schemeSeperator <:+: uri.scheme
  noSlash : uri.scheme.head? ≠ some 0x2F
  view : ∃ view after, strings.parseAuthority view = some (uri.authority, after) ∧
    pathBehind strings after = some uri.path

/-- What the parser saw of a request URI. -/
inductive Seen (strings : RequestUriStrings) (str : Bytes) : ParsedRequestURI → Prop
  | empty (h : str = []) : Seen strings str (.absPath emptyPath)
  | asterisk : Seen strings str .asterisk
  | absPath {path : ParsedURLPath} (hslash : str.head? = some 0x2F)
    (h : strings.parseUrlPath str = some path) : Seen strings str (.absPath path)
  | absoluteURI {uri : ParsedURI} (h : SeenAbsolute strings uri) :
    Seen strings str (.absoluteURI uri)
  | authority {authority : ParsedAuthority} (hne : str ≠ []) (hasterisk : str ≠ ascii "*")
    (hslash : str.head? ≠ some 0x2F) (h : strings.parseAuthority str = some (authority, [])) :
    Seen strings str (.authority authority)

theorem parseUriOrAuthority_seen (hlaw : strings.Lawful) (hne : str ≠ [])
    (hasterisk : str ≠ ascii "*") (hslash : str.head? ≠ some 0x2F) {result : ParsedRequestURI}
    (h : strings.parseUriOrAuthority str = .ok result) : Seen strings str result := by
  cases hsplit : splitFirst schemeSeperator str with
  | none =>
    rw [RequestUriStrings.parseUriOrAuthority, hlaw.splitText, hsplit] at h
    dsimp only at h
    cases hparse : strings.parseAuthority str with
    | none =>
      rw [hparse] at h
      cases h
    | some parsed =>
      obtain ⟨authority, after⟩ := parsed
      rw [hparse] at h
      dsimp only at h
      split_ifs at h with hempty
      · cases h
        rw [not_not, List.length_eq_zero_iff] at hempty
        exact .authority hne hasterisk hslash (hempty ▸ hparse)
  | some parts =>
    obtain ⟨scheme, view⟩ := parts
    have hscheme := splitFirst_before (by decide) hsplit
    have hstr := splitFirst_eq_some hsplit
    have hslash' : scheme.head? ≠ some 0x2F := by
      intro hhead
      apply hslash
      cases scheme with
      | nil => cases hhead
      | cons c scheme =>
        rw [hstr]
        exact hhead
    rw [hstr, parseUriOrAuthority_scheme hlaw hscheme] at h
    cases hparse : strings.parseAuthority view with
    | none =>
      rw [hparse] at h
      cases h
    | some parsed =>
      obtain ⟨authority, after⟩ := parsed
      rw [hparse] at h
      dsimp only at h
      cases hpath : pathBehind strings after with
      | none =>
        rw [hpath] at h
        cases h
      | some path =>
        rw [hpath] at h
        cases h
        exact .absoluteURI ⟨hscheme, hslash', view, after, hparse, hpath⟩

/-- **The kinds of request URIs.** -/
theorem parseRequestUri_seen (hlaw : strings.Lawful) {result : ParsedRequestURI}
    (h : strings.parseRequestUri str = .ok result) : Seen strings str result := by
  unfold RequestUriStrings.parseRequestUri at h
  split_ifs at h with hempty hasterisk hslash
  · cases h
    exact .empty (List.length_eq_zero_iff.1 hempty)
  · cases h
    exact .asterisk
  · have hhead : str.head? = some 0x2F := by
      cases str with
      | nil => exact absurd rfl hempty
      | cons c str => exact congrArg some hslash
    cases hparse : strings.parseUrlPath str with
    | none =>
      rw [hparse] at h
      cases h
    | some path =>
      rw [hparse] at h
      cases h
      exact .absPath hhead hparse
  · apply parseUriOrAuthority_seen hlaw _ _ _ h
    · rintro rfl
      exact hempty rfl
    · rintro rfl
      exact hasterisk ⟨rfl, rfl⟩
    · intro hhead
      cases str with
      | nil => cases hhead
      | cons c str => exact hslash (Option.some.inj hhead)

/-! ## Absolute URIs -/

variable (order) in
theorem pathBehind_clean (hlaw : strings.Lawful) (h : pathBehind strings after = some path)
    (hafter : StartsRest after) : CleanPath path ∧ StartsRest (getParsedUrlAsString order path) ∧
      ∀ c, c ≠ 0x2F → c ≠ 0x3F → c ≠ 0x3D → c ∉ after → c ∉ getParsedUrlAsString order path := by
  unfold pathBehind at h
  split_ifs at h with hempty
  · cases h
    refine ⟨⟨by decide, nofun, nofun⟩, ?_, ?_⟩
    · intro c hc
      cases hc
      decide
    · intro c hslash _ _ _ hmem
      exact hslash (List.mem_singleton.1 hmem)
  · obtain ⟨hclean, hwithin⟩ := parseUrlPath_clean hlaw h
    refine ⟨hclean, ?_, ?_⟩
    · apply startsRest_printed hafter
      rw [parseUrlPath_path h]
      exact splitUrlPath_tail hlaw after
    · intro c _ hmark hequals hnot hmem
      rcases mem_printedPath hmem with hin | hin | hin | ⟨entry, hentry, hin⟩
      · exact hnot (hwithin.path hin)
      · exact hmark hin
      · exact hequals hin
      · obtain ⟨hkey, hvalue⟩ := hwithin.entries entry hentry
        exact hnot (hin.elim (fun hc => hkey hc) (fun hc => hvalue hc))

theorem uriAsString_eq : getUriAsString order uri = tstrCstr uri.scheme ++ (schemeSeperator ++
    (getParsedAuthorityAsString uri.authority ++ getParsedUrlAsString order uri.path)) := by
  rw [getUriAsString, tstrCstr_eq_self (zero_notMem_authority _),
    tstrCstr_eq_self (zero_notMem_path _), List.append_assoc, List.append_assoc]
  rfl

theorem tstrCstr_isPrefix (str : Bytes) : tstrCstr str <+: str := List.takeWhile_prefix _

/-- An absolute URI comes back if and only if its parts do. -/
theorem absoluteRoundTrips_iff (hlaw : strings.Lawful) (h : SeenAbsolute strings uri) :
    RoundTrips strings order (.absoluteURI uri) ↔ PrintableAbsolute uri := by
  obtain ⟨hscheme, hslash, view, after, hparse, hbehind⟩ := h
  obtain ⟨hcleanAuthority, hafter, hwithin⟩ := parseAuthority_clean hlaw hparse
  obtain ⟨hcleanPath, hrest, hnotMem⟩ := pathBehind_clean order hlaw hbehind hafter
  have hat : uri.authority.userInfo.username = none →
      0x40 ∉ getParsedUrlAsString order uri.path := by
    intro hnone
    obtain ⟨hview, -, hsub⟩ := hwithin hnone
    exact hnotMem _ (by decide) (by decide) (by decide) fun hmem => hview (hsub hmem)
  have hscheme' : ¬ schemeSeperator <:+: tstrCstr uri.scheme := fun hinside =>
    hscheme (hinside.trans (tstrCstr_isPrefix _).isInfix)
  have hslash' : (tstrCstr uri.scheme).head? ≠ some 0x2F := by
    intro hhead
    obtain ⟨tail, htail⟩ := tstrCstr_isPrefix uri.scheme
    apply hslash
    rw [← htail, List.head?_append, hhead]
    rfl
  have hauthority {after : Bytes} := parse_printedAuthority after _ hlaw hcleanAuthority
    hrest (zero_notMem_path uri.path) hat
  have hbehind' := pathBehind_iff order hlaw hcleanPath
  unfold RoundTrips
  rw [getRequestUriAsString, uriAsString_eq, parseRequestUri_scheme hslash']
  constructor
  · rintro ⟨uri', hok, hsame⟩
    cases hsame with
    | @absoluteURI uri' uri hsameScheme hsameAuthority hsamePath =>
      obtain ⟨hprinted, after', hparsed, hpath⟩ := (parseUriOrAuthority_ok hlaw hscheme').1 hok
      rw [hsameAuthority, hauthority] at hparsed
      obtain ⟨hprintable, hcolon, rfl⟩ := hparsed
      obtain ⟨hprintablePath, hpresent⟩ := hbehind'.1 ⟨_, hpath, hsamePath⟩
      refine ⟨?_, hprintable, hprintablePath, hpresent, ?_⟩
      · rw [← tstrCstr_eq_self_iff, ← hprinted, hsameScheme]
      · exact fun hport => (colon_printedPath hprintablePath).1 (hcolon hport)
  · rintro ⟨hzero, hprintable, hprintablePath, hpresent, hcolon⟩
    obtain ⟨path', hpath, hsamePath⟩ := hbehind'.2 ⟨hprintablePath, hpresent⟩
    have hparsed := hauthority.2
      ⟨hprintable, fun hport => (colon_printedPath hprintablePath).2 (hcolon hport), rfl⟩
    refine ⟨.absoluteURI ⟨tstrCstr uri.scheme, uri.authority, path'⟩,
      (parseUriOrAuthority_ok hlaw hscheme').2 ⟨rfl, _, hparsed, hpath⟩, ?_⟩
    exact .absoluteURI (tstrCstr_eq_self hzero) rfl hsamePath

/-! ## Paths and authorities -/

theorem absPathRoundTrips_iff (hlaw : strings.Lawful) (hclean : CleanPath path)
    (hslash : path.path.head? = some 0x2F) :
    RoundTrips strings order (.absPath path) ↔ PrintablePath path := by
  obtain ⟨rest, hrest⟩ : ∃ rest, getParsedUrlAsString order path = 0x2F :: rest := by
    obtain ⟨tail, htail⟩ := List.head?_eq_some_iff.1 hslash
    rw [getParsedUrlAsString, htail, tstrCstr, List.takeWhile_cons_of_pos (by decide)]
    exact ⟨_, rfl⟩
  have hparse : strings.parseRequestUri (getParsedUrlAsString order path) =
      (strings.parseUrlPath (getParsedUrlAsString order path)).elim .unreachable
        fun parsedPath => .ok (.absPath parsedPath) := by
    rw [hrest, RequestUriStrings.parseRequestUri, if_neg (by simp), if_neg (by simp),
      if_pos (by simp)]
    cases strings.parseUrlPath (0x2F :: rest) <;> rfl
  rw [← pathRoundTrips_iff order hlaw hclean, RoundTrips, getRequestUriAsString, hparse]
  constructor
  · rintro ⟨uri', hok, hsame⟩
    cases hresult : strings.parseUrlPath (getParsedUrlAsString order path) with
    | none =>
      rw [hresult] at hok
      cases hok
    | some path' =>
      rw [hresult] at hok
      cases hok
      cases hsame with
      | absPath hsame => exact ⟨path', rfl, hsame⟩
  · rintro ⟨path', hresult, hsame⟩
    rw [hresult]
    exact ⟨_, rfl, .absPath hsame⟩

/-- No scheme is found in what is printed of a host and a port. -/
theorem noScheme_printed {host : Bytes} (port : UInt16) (h : 0x3A ∉ host) :
    ¬ schemeSeperator <:+: host ++ portAsString port := by
  rintro ⟨first, last, htext⟩
  obtain ⟨host', tail, hcolon, hnot⟩ : ∃ host' tail, first ++ [0x3A] = host' ++ 0x3A :: tail ∧
      0x3A ∉ host' := List.eq_append_cons_of_mem (by simp)
  have hcut : host ++ portAsString port = host' ++ 0x3A :: (tail ++ (ascii "//" ++ last)) := by
    calc host ++ portAsString port = first ++ [0x3A] ++ (ascii "//" ++ last) := by
          rw [← htext, List.append_assoc, List.append_assoc]
          rfl
      _ = host' ++ 0x3A :: (tail ++ (ascii "//" ++ last)) := by
          rw [hcolon, List.append_assoc, List.cons_append]
  by_cases hport : port = 0
  · have hmem : 0x3A ∈ host := by
      have hempty : portAsString port = [] := if_neg (not_not.2 hport)
      rw [hempty, List.append_nil] at hcut
      simp [hcut]
    exact h hmem
  · have htext : portAsString port = 0x3A :: decimalText port.toNat := if_pos hport
    rw [htext] at hcut
    have hsplit := @splitFirst_append_cons _ _ _ _ (decimalText port.toNat) h
    rw [hcut, splitFirst_append_cons hnot] at hsplit
    have hdigits := (Prod.mk.inj (Option.some.inj hsplit)).2
    have hmem : 0x2F ∈ decimalText port.toNat := by
      rw [← hdigits]
      simp [ascii]
    exact decimalText_notMem (by decide) _ hmem

theorem authorityRoundTrips_iff (hlaw : strings.Lawful) (hclean : CleanAuthority authority)
    (hslash : authority.userInfo.username = none → authority.port ≠ 0 →
      authority.host.head? ≠ some 0x2F) :
    RoundTrips strings order (.authority authority) ↔ PrintableUri (.authority authority) := by
  have hauthority {after : Bytes} := parse_printedAuthority after [] hlaw
    hclean nofun List.not_mem_nil fun _ => List.not_mem_nil
  simp only [List.append_nil] at hauthority
  constructor
  · rintro ⟨uri', hok, hsame⟩
    cases hsame
    cases parseRequestUri_seen hlaw hok with
    | authority hne hasterisk hslash hparse =>
      rw [getRequestUriAsString] at hne hasterisk hparse
      obtain ⟨hprintable, -⟩ := hauthority.1 hparse
      refine ⟨hprintable, ?_⟩
      intro hport
      have hempty : portAsString authority.port = [] := if_neg (not_not.2 hport)
      rw [authorityAsString_none (congrArg URIUserInfo.username hprintable.userInfo), hempty,
        tstrCstr_eq_self hprintable.host, List.append_nil] at hne hasterisk
      exact ⟨hne, hasterisk⟩
  · rintro ⟨hprintable, hpresent⟩
    have hnone := congrArg URIUserInfo.username hprintable.userInfo
    have hparse := hauthority.2 ⟨hprintable, fun _ => List.not_mem_nil, rfl⟩
    have hscheme := noScheme_printed authority.port hclean.host
    have htext := authorityAsString_none hnone
    rw [tstrCstr_eq_self hprintable.host] at htext
    have hlength : getParsedAuthorityAsString authority ≠ [] ∧
        getParsedAuthorityAsString authority ≠ ascii "*" := by
      rw [htext]
      by_cases hport : authority.port = 0
      · have hempty : portAsString authority.port = [] := if_neg (not_not.2 hport)
        rw [hempty, List.append_nil]
        exact hpresent hport
      · have hcolon : portAsString authority.port = 0x3A :: decimalText authority.port.toNat :=
          if_pos hport
        rw [hcolon]
        refine ⟨by simp, ?_⟩
        intro hasterisk
        have hmem : 0x3A ∈ ascii "*" := hasterisk ▸ by simp
        exact absurd hmem (by decide)
    have hhead : (getParsedAuthorityAsString authority).headD 0 ≠ 0x2F := by
      rw [htext]
      cases hhost : authority.host with
      | nil =>
        unfold portAsString
        split_ifs <;> simp
      | cons first host =>
        by_cases hport : authority.port = 0
        · have hfirst := hprintable.noPort hport first (by simp [hhost])
          intro hbyte
          exact hfirst (.inl hbyte)
        · have hfirst := hslash hnone hport
          rw [hhost] at hfirst
          simpa using hfirst
    refine ⟨.authority authority, ?_, .authority authority⟩
    obtain ⟨hne, hasterisk⟩ := hlength
    have hempty : (getParsedAuthorityAsString authority).length ≠ 0 := by
      rwa [ne_eq, List.length_eq_zero_iff]
    have hstar : ¬ ((getParsedAuthorityAsString authority).length = 1 ∧
        (getParsedAuthorityAsString authority).headD 0 = 0x2A) := by
      rintro ⟨hone, hbyte⟩
      obtain ⟨c, hc⟩ := List.length_eq_one_iff.1 hone
      rw [hc] at hasterisk hbyte
      exact hasterisk (congrArg (fun c => [c]) hbyte)
    rw [getRequestUriAsString, RequestUriStrings.parseRequestUri, if_neg hempty, if_neg hstar,
      if_neg hhead, RequestUriStrings.parseUriOrAuthority, hlaw.splitText, htext,
      splitFirst_eq_none.2 hscheme, ← htext, hparse]
    rfl

/-! ## The result -/

theorem emptyPath_clean : CleanPath emptyPath := ⟨by decide, nofun, nofun⟩

theorem absPath_head (hlaw : strings.Lawful) (hslash : str.head? = some 0x2F)
    (h : strings.parseUrlPath str = some path) : path.path.head? = some 0x2F := by
  obtain ⟨tail, htail, hmark⟩ := splitUrlPath_tail hlaw str
  rw [← parseUrlPath_path h] at htail
  cases hpath : path.path with
  | nil =>
    rw [hpath, List.nil_append] at htail
    rw [htail] at hslash
    rcases hmark _ hslash with hbyte | hbyte <;> exact absurd hbyte (by decide)
  | cons first rest =>
    rw [htail, hpath] at hslash
    exact hslash

theorem CutHost.head (h : CutHost strings view authority.host authority.port after)
    (hport : authority.port ≠ 0) (hslash : view.head? ≠ some 0x2F) :
    authority.host.head? ≠ some 0x2F := by
  obtain ⟨userInfo, host, port⟩ := authority
  intro hhead
  apply hslash
  cases h with
  | noPort => exact absurd rfl hport
  | port =>
    dsimp only at hhead
    rw [List.head?_append, hhead]
    rfl

/-- **Printing a request URI undoes parsing it** exactly for the printable ones, whatever the
order in which the map gives its entries. -/
theorem uriRoundTrips_iff (hlaw : strings.Lawful) {result : ParsedRequestURI}
    (h : strings.parseRequestUri str = .ok result) :
    RoundTrips strings order result ↔ PrintableUri result := by
  cases parseRequestUri_seen hlaw h with
  | empty => exact absPathRoundTrips_iff hlaw emptyPath_clean rfl
  | asterisk => exact iff_of_true ⟨.asterisk, rfl, .asterisk⟩ trivial
  | absPath hslash hparse =>
    exact absPathRoundTrips_iff hlaw (parseUrlPath_clean hlaw hparse).1
      (absPath_head hlaw hslash hparse)
  | absoluteURI hseen => exact absoluteRoundTrips_iff hlaw hseen
  | @authority authority _ _ hslash hparse =>
    refine authorityRoundTrips_iff hlaw (parseAuthority_clean hlaw hparse).1 ?_
    intro hnone hport
    obtain ⟨view, hinfo, hcut⟩ := (parseAuthority_iff hlaw).1 hparse
    obtain ⟨userInfo, host, port⟩ := authority
    dsimp only at hinfo hnone
    cases hinfo with
    | absent => exact hcut.head hport hslash
    | present => exact absurd hnone (parseUserInfo_username _)

/-- The entries come in the order of insertion. -/
def SearchPathOrder.insertion : SearchPathOrder := ⟨id, fun _ => .refl _⟩

/-- An absolute URI with a port, a path and a search parameter. -/
theorem uriRoundTrips_absolute :
    RoundTrips .plain .insertion (.absoluteURI ⟨ascii "http", ⟨⟨none, none⟩, ascii "host", 8080⟩,
      ⟨ascii "/a:b", [(ascii "k", ascii "v")], some []⟩⟩) := by
  have hparse : RequestUriStrings.plain.parseRequestUri (ascii "http://host:8080/a:b?k=v") =
      .ok (.absoluteURI ⟨ascii "http", ⟨⟨none, none⟩, ascii "host", 8080⟩,
        ⟨ascii "/a:b", [(ascii "k", ascii "v")], some []⟩⟩) := by decide +kernel
  refine (uriRoundTrips_iff RequestUriStrings.plain_lawful hparse).2
    ⟨by decide, ⟨rfl, by decide, nofun⟩, ⟨by decide, rfl, ?_⟩, .inl (by decide), nofun⟩
  exact .single (by decide) (by decide) (.inl (by decide))

/-- Two search parameters are printed without a separator, and come back as one. -/
theorem twoParameters_merged : ∃ result,
    RequestUriStrings.plain.parseRequestUri (ascii "/?a=1&b=2") = .ok result ∧
      ¬ RoundTrips .plain .insertion result := by
  refine ⟨.absPath ⟨ascii "/", [(ascii "a", ascii "1"), (ascii "b", ascii "2")], some []⟩,
    by decide, ?_⟩
  rintro ⟨result, hok, hsame⟩
  have hmerged : RequestUriStrings.plain.parseRequestUri (getRequestUriAsString .insertion
      (.absPath ⟨ascii "/", [(ascii "a", ascii "1"), (ascii "b", ascii "2")], some []⟩)) =
        .ok (.absPath ⟨ascii "/", [(ascii "a", ascii "1b=2")], some []⟩) := by decide
  rw [hmerged] at hok
  cases hok
  cases hsame with
  | absPath hsame => exact absurd hsame.entries.length_eq (by decide)

end SimpleServer.Http
