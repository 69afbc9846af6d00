import Mathlib.Data.List.TakeWhile
import SimpleServer.Http.RequestUri

/-!
# Where an authority ends

`parse_authority` cuts at the first '@' and the first ':' of everything behind the scheme, and
looks for the end of the authority only behind them. What stands in the path can so be taken for
a part of the authority.

* `parseAuthority_iff`: what the parser makes of a text, as a relation.
* `splitRight_iff`: **an absolute URI is split at its boundaries if and only if no part of it
  holds a separator that is looked for before.**
-/

namespace SimpleServer.Http

open Lib

variable {strings : RequestUriStrings} {str view host text after rest : Bytes}

/-! ## The end of the authority -/

/-- A byte that ends the authority. -/
def EndsAuthority (c : UInt8) : Prop := c = 0x2F ∨ c = 0x3F ∨ c = 0x23

instance : DecidablePred EndsAuthority := fun c =>
  inferInstanceAs (Decidable (c = 0x2F ∨ c = 0x3F ∨ c = 0x23))

/-- What comes behind an authority. -/
def StartsRest (rest : Bytes) : Prop := ∀ c ∈ rest.head?, EndsAuthority c

/-- No byte ends an authority. -/
def Unended (text : Bytes) : Prop := ∀ c ∈ text, ¬ EndsAuthority c

instance (text : Bytes) : Decidable (Unended text) := List.decidableBAll _ text

theorem findAuthoritySplit_append (h : Unended text) (hrest : StartsRest rest) :
    findAuthoritySplit (text ++ rest) = (text, rest) := by
  have hall : ∀ c ∈ text, decide (¬ EndsAuthority c) = true := by
    intro c hc
    exact decide_eq_true (h c hc)
  have hspan : (text ++ rest).span (fun c => decide (¬ EndsAuthority c)) = (text, rest) := by
    rw [List.span_eq_takeWhile_dropWhile, List.takeWhile_append_of_pos hall,
      List.dropWhile_append_of_pos hall]
    cases rest with
    | nil => simp
    | cons c rest =>
      have hc : EndsAuthority c := hrest c rfl
      simp [hc]
  exact hspan

theorem findAuthoritySplit_eq (h : findAuthoritySplit str = (text, after)) :
    str = text ++ after ∧ Unended text ∧ StartsRest after := by
  have hspan : str.span (fun c => decide (¬ EndsAuthority c)) = (text, after) := h
  rw [List.span_eq_takeWhile_dropWhile] at hspan
  obtain ⟨htext, hafter⟩ := Prod.mk.inj hspan
  refine ⟨?_, ?_, ?_⟩
  · rw [← htext, ← hafter, List.takeWhile_append_dropWhile]
  · intro c hc
    rw [← htext] at hc
    have hnot := List.mem_takeWhile_imp hc
    exact of_decide_eq_true hnot
  · intro c hc
    rw [← hafter] at hc
    have hnot := List.head?_dropWhile_not (fun c => decide (¬ EndsAuthority c)) str
    rw [Option.mem_def.1 hc] at hnot
    simpa using hnot

/-! ## The cuts -/

/-- The cut at the first '@'. -/
inductive CutUserInfo (strings : RequestUriStrings) : Bytes → URIUserInfo → Bytes → Prop
  | absent {str : Bytes} (h : 0x40 ∉ str) : CutUserInfo strings str ⟨none, none⟩ str
  | present {userinfo view : Bytes} (h : 0x40 ∉ userinfo) :
    CutUserInfo strings (userinfo ++ 0x40 :: view) (strings.parseUserInfo userinfo) view

/-- The cut at the first ':', and the end of the authority. -/
inductive CutHost (strings : RequestUriStrings) : Bytes → Bytes → UInt16 → Bytes → Prop
  | noPort {host after : Bytes} (h : 0x3A ∉ host ++ after) (hhost : Unended host)
    (hafter : StartsRest after) : CutHost strings (host ++ after) host 0 after
  | port {host text after : Bytes} {port : UInt16} (h : 0x3A ∉ host) (htext : Unended text)
    (hafter : StartsRest after) (hport : strings.parseU16 text = some port) :
    CutHost strings (host ++ 0x3A :: (text ++ after)) host port after

/-- The part of `parse_authority` behind the user information. -/
def parseHost (strings : RequestUriStrings) (userInfo : URIUserInfo) (view : Bytes) :
    Option (ParsedAuthority × Bytes) :=
  match strings.tstrSplit view 0x3A with
  | some (host, second) =>
    (strings.parseU16 (findAuthoritySplit second).1).map fun port =>
      (⟨userInfo, host, port⟩, (findAuthoritySplit second).2)
  | none => some (⟨userInfo, (findAuthoritySplit view).1, 0⟩, (findAuthoritySplit view).2)

theorem parseAuthority_none (hlaw : strings.Lawful) (h : 0x40 ∉ str) :
    strings.parseAuthority str = parseHost strings ⟨none, none⟩ str := by
  rw [UriStrings.parseAuthority, hlaw.split, splitFirst_eq_none_of_not_mem h]
  rfl

theorem parseAuthority_some (hlaw : strings.Lawful) {userinfo : Bytes} (h : 0x40 ∉ userinfo) :
    strings.parseAuthority (userinfo ++ 0x40 :: view) =
      parseHost strings (strings.parseUserInfo userinfo) view := by
  rw [UriStrings.parseAuthority, hlaw.split, splitFirst_append_cons h]
  rfl

theorem cutHost_of_parseHost (hlaw : strings.Lawful) {userInfo : URIUserInfo}
    {authority : ParsedAuthority} (h : parseHost strings userInfo view = some (authority, after)) :
    authority.userInfo = userInfo ∧ CutHost strings view authority.host authority.port after := by
  rw [parseHost, hlaw.split] at h
  cases hsplit : splitFirst [0x3A] view with
  | none =>
    rw [hsplit] at h
    rw [splitFirst_eq_none, List.singleton_infix_iff] at hsplit
    cases hend : findAuthoritySplit view with
    | mk host after' =>
      rw [hend] at h
      cases h
      obtain ⟨rfl, hhost, hafter⟩ := findAuthoritySplit_eq hend
      exact ⟨rfl, .noPort hsplit hhost hafter⟩
  | some parts =>
    obtain ⟨host, second⟩ := parts
    rw [hsplit] at h
    obtain ⟨rfl, hnot⟩ := splitFirst_cons_eq_some.1 hsplit
    cases hend : findAuthoritySplit second with
    | mk text after' =>
      dsimp only at h
      rw [hend] at h
      obtain ⟨port, hport, hparts⟩ := Option.map_eq_some_iff.1 h
      cases hparts
      obtain ⟨rfl, htext, hafter⟩ := findAuthoritySplit_eq hend
      exact ⟨rfl, .port hnot htext hafter hport⟩

theorem parseHost_of_cutHost (hlaw : strings.Lawful) {userInfo : URIUserInfo} {port : UInt16}
    (h : CutHost strings view host port after) :
    parseHost strings userInfo view = some (⟨userInfo, host, port⟩, after) := by
  rw [parseHost, hlaw.split]
  cases h with
  | noPort h hhost hafter =>
    rw [splitFirst_eq_none_of_not_mem h]
    dsimp only
    rw [findAuthoritySplit_append hhost hafter]
  | port h htext hafter hport =>
    rw [splitFirst_append_cons h]
    dsimp only
    rw [findAuthoritySplit_append htext hafter]
    dsimp only
    rw [hport, Option.map_some]

/-- **What `parse_authority` makes of a text.** -/
theorem parseAuthority_iff (hlaw : strings.Lawful) {authority : ParsedAuthority} :
    strings.parseAuthority str = some (authority, after) ↔
      ∃ view, CutUserInfo strings str authority.userInfo view ∧
        CutHost strings view authority.host authority.port after := by
  constructor
  · intro h
    by_cases hmem : 0x40 ∈ str
    · obtain ⟨userinfo, view, rfl, hnot⟩ := List.eq_append_cons_of_mem hmem
      rw [parseAuthority_some hlaw hnot] at h
      obtain ⟨hinfo, hcut⟩ := cutHost_of_parseHost hlaw h
      rw [hinfo]
      exact ⟨view, .present hnot, hcut⟩
    · rw [parseAuthority_none hlaw hmem] at h
      obtain ⟨hinfo, hcut⟩ := cutHost_of_parseHost hlaw h
      rw [hinfo]
      exact ⟨str, .absent hmem, hcut⟩
  · rintro ⟨view, hinfo, hcut⟩
    obtain ⟨userInfo, host, port⟩ := authority
    cases hinfo with
    | absent h =>
      rw [parseAuthority_none hlaw h]
      exact parseHost_of_cutHost hlaw hcut
    | present h =>
      rw [parseAuthority_some hlaw h]
      exact parseHost_of_cutHost hlaw hcut

theorem parseUserInfo_none (hlaw : strings.Lawful) {user : Bytes} (h : 0x3A ∉ user) :
    strings.parseUserInfo user = ⟨some user, none⟩ := by
  rw [UriStrings.parseUserInfo, hlaw.split, splitFirst_eq_none_of_not_mem h]

theorem parseUserInfo_some (hlaw : strings.Lawful) {user : Bytes} (h : 0x3A ∉ user)
    (password : Bytes) :
    strings.parseUserInfo (user ++ 0x3A :: password) = ⟨some user, some password⟩ := by
  rw [UriStrings.parseUserInfo, hlaw.split, splitFirst_append_cons h]

/-- `user` or `user:password`. -/
def userInfoText (user : Bytes) (password : Option Bytes) : Bytes :=
  match password with
  | none => user
  | some password => user ++ 0x3A :: password

/-- The user name ends at the first ':'. -/
theorem parseUserInfo_iff (hlaw : strings.Lawful) {userinfo user : Bytes}
    {password : Option Bytes} :
    strings.parseUserInfo userinfo = ⟨some user, password⟩ ↔
      0x3A ∉ user ∧ userinfo = userInfoText user password := by
  constructor
  · intro h
    by_cases hmem : 0x3A ∈ userinfo
    · obtain ⟨user', password', rfl, hnot⟩ := List.eq_append_cons_of_mem hmem
      rw [parseUserInfo_some hlaw hnot] at h
      cases h
      exact ⟨hnot, rfl⟩
    · rw [parseUserInfo_none hlaw hmem] at h
      cases h
      exact ⟨hmem, rfl⟩
  · rintro ⟨huser, rfl⟩
    cases password with
    | none => exact parseUserInfo_none hlaw huser
    | some password => exact parseUserInfo_some hlaw huser password

/-! ## The parts of an absolute URI -/

/-- The parts of an authority, as they are written. -/
structure AuthorityParts where
  userInfo : Option (Bytes × Option Bytes)
  host : Bytes
  port : Option Bytes

namespace AuthorityParts

/-- `[user[:password]@]`. -/
def userText (parts : AuthorityParts) : Bytes :=
  match parts.userInfo with
  | none => []
  | some (user, password) => userInfoText user password ++ [0x40]

/-- `[:port]`. -/
def portText (parts : AuthorityParts) : Bytes := (parts.port.map fun port => 0x3A :: port).getD []

def bytes (parts : AuthorityParts) : Bytes := parts.userText ++ (parts.host ++ parts.portText)

/-- What the parts stand for. -/
def value (parts : AuthorityParts) : ParsedAuthority :=
  ⟨⟨parts.userInfo.map Prod.fst, parts.userInfo.bind Prod.snd⟩, parts.host,
    UInt16.ofNat ((parts.port.map decimalValue).getD 0)⟩

/-- The parts are written without a byte that ends the authority, the host without the other
separators, and the port is one. -/
structure WellFormed (parts : AuthorityParts) : Prop where
  unended : Unended parts.bytes
  host : 0x3A ∉ parts.host ∧ 0x40 ∉ parts.host
  port : ∀ port ∈ parts.port, IsDecimal port ∧ decimalValue port < 65536

end AuthorityParts

variable {parts : AuthorityParts} {scheme : Bytes}

/-- The path behind the authority. -/
def pathBehind (strings : RequestUriStrings) (rest : Bytes) : Option ParsedURLPath :=
  if rest = [] then some emptyPath else strings.parseUrlPath rest

/-- An absolute URI is taken apart at its boundaries. -/
def SplitRight (strings : RequestUriStrings) (scheme : Bytes) (parts : AuthorityParts)
    (rest : Bytes) : Prop :=
  ∃ path, pathBehind strings rest = some path ∧
    strings.parseRequestUri (scheme ++ ascii "://" ++ parts.bytes ++ rest) =
      .ok (.absoluteURI ⟨scheme, parts.value, path⟩)

/-- No separator stands where it is found before the one that is meant: the user name and the
password are free of '@' and the user name of ':', a URI without user information has no '@'
behind the authority, and one without a port no ':'. -/
structure NoEarlySeparator (parts : AuthorityParts) (rest : Bytes) : Prop where
  user : ∀ user password, parts.userInfo = some (user, password) →
    0x40 ∉ userInfoText user password ∧ 0x3A ∉ user
  noUser : parts.userInfo = none → 0x40 ∉ rest
  noPort : parts.port = none → 0x3A ∉ rest

theorem parseU16_decimal (hlaw : strings.Lawful) {port : Bytes} (h : IsDecimal port)
    (hsmall : decimalValue port < 65536) :
    strings.parseU16 port = some (UInt16.ofNat (decimalValue port)) := by
  rw [UriStrings.parseU16, hlaw.toInt port h (by omega)]
  dsimp only
  rw [if_neg (by omega), if_neg (by omega), Int.toNat_natCast]

theorem Unended.append_left (h : Unended (text ++ str)) : Unended text :=
  fun c hc => h c (List.mem_append_left _ hc)

theorem Unended.append_right (h : Unended (text ++ str)) : Unended str :=
  fun c hc => h c (List.mem_append_right _ hc)

/-- The end of the authority is where a byte ends it. -/
theorem unended_append_inj {text' rest' : Bytes} (h : text ++ rest = text' ++ rest')
    (htext : Unended text) (htext' : Unended text') (hrest : StartsRest rest)
    (hrest' : StartsRest rest') : text = text' ∧ rest = rest' := by
  have hsplit := findAuthoritySplit_append htext hrest
  rw [h, findAuthoritySplit_append htext' hrest'] at hsplit
  obtain ⟨htext, hrest⟩ := Prod.mk.inj hsplit
  exact ⟨htext.symm, hrest.symm⟩

theorem not_startsRest_colon (hrest : StartsRest rest) : rest ≠ 0x3A :: str := by
  rintro rfl
  exact absurd (hrest 0x3A rfl) (by decide)

/-- The host and the port are cut out if and only if a missing port leaves no ':' behind. -/
theorem cutHost_iff (hlaw : strings.Lawful) (hparts : parts.WellFormed) (hrest : StartsRest rest) :
    CutHost strings (parts.host ++ (parts.portText ++ rest)) parts.host parts.value.port after ↔
      (parts.port = none → 0x3A ∉ rest) ∧ after = rest := by
  have hunended := hparts.unended.append_right
  cases hport : parts.port with
  | none =>
    have hportText : parts.portText = [] := by simp [AuthorityParts.portText, hport]
    have hvalue : parts.value.port = 0 := by simp [AuthorityParts.value, hport]
    rw [hportText, List.nil_append, hvalue]
    constructor
    · intro hcut
      generalize hview : parts.host ++ rest = view at hcut
      generalize hzero : (0 : UInt16) = port at hcut
      cases hcut with
      | noPort h =>
        have hafter := List.append_cancel_left hview
        rw [List.mem_append, not_or, ← hafter] at h
        exact ⟨fun _ => h.2, hafter.symm⟩
      | port h => exact absurd (List.append_cancel_left hview) (not_startsRest_colon hrest)
    · rintro ⟨h, rfl⟩
      apply CutHost.noPort
      · rw [List.mem_append, not_or]
        exact ⟨hparts.host.1, h rfl⟩
      · exact hunended.append_left
      · exact hrest
  | some port =>
    obtain ⟨hdecimal, hsmall⟩ := hparts.port port hport
    have hportText : parts.portText = 0x3A :: port := by simp [AuthorityParts.portText, hport]
    have hvalue : parts.value.port = UInt16.ofNat (decimalValue port) := by
      simp [AuthorityParts.value, hport]
    have hclean : Unended port := by
      intro c hc
      exact hunended c (by simp [hportText, hc])
    rw [hportText, hvalue, List.cons_append]
    constructor
    · intro hcut
      generalize hview : parts.host ++ 0x3A :: (port ++ rest) = view at hcut
      generalize UInt16.ofNat (decimalValue port) = number at hcut
      cases hcut with
      | noPort h =>
        rw [← hview] at h
        simp at h
      | port h htext hafter =>
        have htail := (List.cons.inj (List.append_cancel_left hview)).2
        exact ⟨nofun, (unended_append_inj htail hclean htext hrest hafter).2.symm⟩
    · rintro ⟨-, rfl⟩
      exact .port hparts.host.1 hclean hrest (parseU16_decimal hlaw hdecimal hsmall)

theorem parseUserInfo_username (userinfo : Bytes) :
    (strings.parseUserInfo userinfo).username ≠ none := by
  rw [UriStrings.parseUserInfo]
  cases strings.tstrSplit userinfo 0x3A <;> simp

theorem CutUserInfo.eq_none (h : CutUserInfo strings str ⟨none, none⟩ view) :
    0x40 ∉ str ∧ view = str := by
  generalize hinfo : URIUserInfo.mk none none = info at h
  cases h with
  | absent h => exact ⟨h, rfl⟩
  | present h => exact absurd (congrArg URIUserInfo.username hinfo).symm (parseUserInfo_username _)

theorem CutUserInfo.eq_some (hlaw : strings.Lawful) {user : Bytes} {password : Option Bytes}
    (h : CutUserInfo strings str ⟨some user, password⟩ view) :
    0x40 ∉ userInfoText user password ∧ 0x3A ∉ user ∧
      str = userInfoText user password ++ 0x40 :: view := by
  generalize hinfo : URIUserInfo.mk (some user) password = info at h
  cases h with
  | absent h => cases hinfo
  | present h =>
    obtain ⟨huser, rfl⟩ := (parseUserInfo_iff hlaw).1 hinfo.symm
    exact ⟨h, huser, rfl⟩

/-- **An authority is taken apart as it was written** if and only if no separator comes early. -/
theorem parseAuthority_parts (hlaw : strings.Lawful) (hparts : parts.WellFormed)
    (hrest : StartsRest rest) :
    strings.parseAuthority (parts.bytes ++ rest) = some (parts.value, after) ↔
      NoEarlySeparator parts rest ∧ after = rest := by
  have hport : 0x40 ∉ parts.portText := by
    intro hmem
    cases hport : parts.port with
    | none => simp [AuthorityParts.portText, hport] at hmem
    | some port =>
      have hdigits := (hparts.port port hport).1.digits
      have hport : 0x40 ∈ port := by simpa [AuthorityParts.portText, hport] using hmem
      exact absurd (hdigits _ hport) (by decide)
  have hview : parts.bytes ++ rest =
      parts.userText ++ (parts.host ++ (parts.portText ++ rest)) := by
    rw [AuthorityParts.bytes, List.append_assoc, List.append_assoc]
  rw [parseAuthority_iff hlaw, hview]
  cases huser : parts.userInfo with
  | none =>
    have htext : parts.userText = [] := by simp [AuthorityParts.userText, huser]
    have hvalue : parts.value.userInfo = ⟨none, none⟩ := by simp [AuthorityParts.value, huser]
    rw [htext, List.nil_append, hvalue]
    constructor
    · rintro ⟨view, hinfo, hcut⟩
      obtain ⟨hnot, rfl⟩ := hinfo.eq_none
      obtain ⟨hcolon, hafter⟩ := (cutHost_iff hlaw hparts hrest).1 hcut
      refine ⟨⟨by simp [huser], ?_, hcolon⟩, hafter⟩
      intro _ hmem
      exact hnot (by simp [hmem])
    · rintro ⟨h, hafter⟩
      refine ⟨_, .absent ?_, (cutHost_iff hlaw hparts hrest).2 ⟨h.noPort, hafter⟩⟩
      simp [hparts.host.2, hport, h.noUser huser]
  | some info =>
    obtain ⟨user, password⟩ := info
    have htext : parts.userText = userInfoText user password ++ [0x40] := by
      simp [AuthorityParts.userText, huser]
    have hvalue : parts.value.userInfo = ⟨some user, password⟩ := by
      simp [AuthorityParts.value, huser]
    rw [htext, List.append_assoc, List.singleton_append, hvalue]
    constructor
    · rintro ⟨view, hinfo, hcut⟩
      obtain ⟨hnot, hcolon, hstr⟩ := hinfo.eq_some hlaw
      have htail := List.append_cancel_left hstr
      obtain rfl : _ = view := (List.cons.inj htail).2
      obtain ⟨hport, hafter⟩ := (cutHost_iff hlaw hparts hrest).1 hcut
      refine ⟨⟨?_, by simp [huser], hport⟩, hafter⟩
      intro user' password' heq
      rw [huser] at heq
      cases heq
      exact ⟨hnot, hcolon⟩
    · rintro ⟨h, hafter⟩
      obtain ⟨hnot, hcolon⟩ := h.user user password huser
      refine ⟨_, ?_, (cutHost_iff hlaw hparts hrest).2 ⟨h.noPort, hafter⟩⟩
      rw [← (parseUserInfo_iff hlaw).2 ⟨hcolon, rfl⟩]
      exact .present hnot

/-! ## The scheme -/

/-- No separator starts inside a scheme without one. -/
theorem unstarted_scheme (h : ¬ schemeSeperator <:+: scheme) (after : Bytes) :
    Unstarted schemeSeperator scheme after := by
  intro n hn hprefix
  have hsuffix : scheme.drop n <:+ scheme := List.drop_suffix n scheme
  match hdrop : scheme.drop n with
  | [] =>
    rw [List.drop_eq_nil_iff] at hdrop
    omega
  | [a] =>
    obtain ⟨tail, htail⟩ := hdrop ▸ hprefix
    simp [schemeSeperator, ascii] at htail
  | [a, b] =>
    obtain ⟨tail, htail⟩ := hdrop ▸ hprefix
    simp [schemeSeperator, ascii] at htail
  | a :: b :: c :: more =>
    have hlength : schemeSeperator.length ≤ (scheme.drop n).length := by
      rw [hdrop, List.length_cons, List.length_cons, List.length_cons]
      exact Nat.le_add_left 3 more.length
    have hinside := List.prefix_of_prefix_length_le hprefix (List.prefix_append _ _) hlength
    exact h (hinside.isInfix.trans hsuffix.isInfix)

theorem splitText_scheme (hlaw : strings.Lawful) (h : ¬ schemeSeperator <:+: scheme)
    (after : Bytes) : strings.tstrSplitText (scheme ++ (schemeSeperator ++ after)) schemeSeperator =
      some (scheme, after) := by
  rw [hlaw.splitText, splitFirst_append (unstarted_scheme h after)]

/-- What has a scheme is not taken for a path, unless the scheme starts like one. -/
theorem parseRequestUri_scheme (hslash : scheme.head? ≠ some 0x2F) (after : Bytes) :
    strings.parseRequestUri (scheme ++ (schemeSeperator ++ after)) =
      strings.parseUriOrAuthority (scheme ++ (schemeSeperator ++ after)) := by
  have hlength : 3 ≤ (scheme ++ (schemeSeperator ++ after)).length := by
    have hthree : schemeSeperator.length = 3 := by decide
    rw [List.length_append, List.length_append, hthree]
    omega
  have hhead : (scheme ++ (schemeSeperator ++ after)).headD 0 ≠ 0x2F := by
    cases scheme with
    | nil => simp [schemeSeperator, ascii]
    | cons c scheme => simpa using hslash
  rw [RequestUriStrings.parseRequestUri, if_neg (by omega), if_neg (by omega), if_neg hhead]

theorem parseRequestUri_slash {str : Bytes} (h : str.head? = some 0x2F) {uri : ParsedURI} :
    strings.parseRequestUri str ≠ .ok (.absoluteURI uri) := by
  cases str with
  | nil => cases h
  | cons c str =>
    obtain rfl : c = 0x2F := Option.some.inj h
    rw [RequestUriStrings.parseRequestUri, if_neg (by simp), if_neg (by simp), if_pos (by simp)]
    cases strings.parseUrlPath (0x2F :: str) <;> simp

/-- What the text of an absolute URI comes to. -/
theorem parseUriOrAuthority_scheme (hlaw : strings.Lawful) (h : ¬ schemeSeperator <:+: scheme)
    (view : Bytes) :
    strings.parseUriOrAuthority (scheme ++ (schemeSeperator ++ view)) =
      match strings.parseAuthority view with
      | none => .error "Authority parse error: not a valid authority"
      | some (authority, after) =>
        match pathBehind strings after with
        | none => .unreachable
        | some path => .ok (.absoluteURI ⟨scheme, authority, path⟩) := by
  rw [RequestUriStrings.parseUriOrAuthority, splitText_scheme hlaw h]
  dsimp only
  cases strings.parseAuthority view with
  | none => rfl
  | some result =>
    dsimp only
    unfold pathBehind
    by_cases hempty : result.2 = []
    · rw [if_pos (List.length_eq_zero_iff.2 hempty), if_pos hempty]
    · rewrite [if_neg fun hzero => hempty (List.length_eq_zero_iff.1 hzero), if_neg hempty]
      cases strings.parseUrlPath result.2 <;> rfl

theorem parseUriOrAuthority_ok (hlaw : strings.Lawful) (h : ¬ schemeSeperator <:+: scheme)
    {uri : ParsedURI} :
    strings.parseUriOrAuthority (scheme ++ (schemeSeperator ++ view)) = .ok (.absoluteURI uri) ↔
      uri.scheme = scheme ∧ ∃ after, strings.parseAuthority view = some (uri.authority, after) ∧
        pathBehind strings after = some uri.path := by
  rw [parseUriOrAuthority_scheme hlaw h]
  obtain ⟨scheme', authority', path'⟩ := uri
  cases strings.parseAuthority view with
  | none => simp
  | some result =>
    obtain ⟨authority, after⟩ := result
    dsimp only
    constructor
    · intro hok
      cases hpath : pathBehind strings after with
      | none =>
        rw [hpath] at hok
        cases hok
      | some path =>
        rw [hpath] at hok
        cases hok
        exact ⟨rfl, after, rfl, hpath⟩
    · rintro ⟨rfl, after', hresult, hpath⟩
      cases hresult
      rw [hpath]

/-- All keys of the query are different. -/
theorem pathBehind_isSome (hlaw : strings.Lawful) :
    (∃ path, pathBehind strings rest = some path) ↔ (strings.pathKeys rest).Nodup := by
  unfold pathBehind
  by_cases hempty : rest = []
  · rw [if_pos hempty, hempty]
    have hkeys : strings.pathKeys [] = [] := by
      have hsplit := hlaw.split [] 0x3F
      have hsplit' := hlaw.split [] 0x23
      simp [UriStrings.pathKeys, UriStrings.splitUrlPath, UriStrings.splitOr, hsplit, hsplit',
        splitFirst, UriStrings.searchKeys]
    simp [hkeys]
  · rw [if_neg hempty, ← parseUrlPath_isSome, Option.isSome_iff_exists]

/-- **An absolute URI is split at its boundaries** if and only if it does not look like a path, no
separator comes early and no key of the query comes twice. -/
theorem splitRight_iff (hlaw : strings.Lawful) (hscheme : ¬ schemeSeperator <:+: scheme)
    (hparts : parts.WellFormed) (hrest : StartsRest rest) :
    SplitRight strings scheme parts rest ↔
      scheme.head? ≠ some 0x2F ∧ NoEarlySeparator parts rest ∧
        (strings.pathKeys rest).Nodup := by
  have htext : scheme ++ ascii "://" ++ parts.bytes ++ rest =
      scheme ++ (schemeSeperator ++ (parts.bytes ++ rest)) := by
    rw [List.append_assoc, List.append_assoc]
    rfl
  unfold SplitRight
  rw [htext, ← pathBehind_isSome hlaw]
  constructor
  · rintro ⟨path, hpath, hok⟩
    have hslash : scheme.head? ≠ some 0x2F := by
      intro hslash
      apply parseRequestUri_slash _ hok
      cases scheme with
      | nil => cases hslash
      | cons c scheme => exact hslash
    rw [parseRequestUri_scheme hslash, parseUriOrAuthority_ok hlaw hscheme] at hok
    obtain ⟨-, after, hauthority, -⟩ := hok
    exact ⟨hslash, ((parseAuthority_parts hlaw hparts hrest).1 hauthority).1, path, hpath⟩
  · rintro ⟨hslash, hseparator, path, hpath⟩
    refine ⟨path, hpath, ?_⟩
    rw [parseRequestUri_scheme hslash, parseUriOrAuthority_ok hlaw hscheme]
    exact ⟨rfl, rest, (parseAuthority_parts hlaw hparts hrest).2 ⟨hseparator, rfl⟩, hpath⟩

/-- A user name, a password, a host, a port, a path with both separators and a query. -/
theorem splitRight_allParts :
    SplitRight .plain (ascii "http") ⟨some (ascii "user", some (ascii "pass")), ascii "host",
      some (ascii "8080")⟩ (ascii "/a:b@c?k=v") := by
  have hparts : AuthorityParts.WellFormed ⟨some (ascii "user", some (ascii "pass")), ascii "host",
      some (ascii "8080")⟩ := by
    refine ⟨by decide, by decide, ?_⟩
    intro port hport
    cases hport
    decide
  have hscheme : ¬ schemeSeperator <:+: ascii "http" := splitFirst_eq_none.1 (by decide)
  have hrest : StartsRest (ascii "/a:b@c?k=v") := by
    intro c hc
    cases hc
    decide
  refine (splitRight_iff RequestUriStrings.plain_lawful hscheme hparts hrest).2
    ⟨by decide, ⟨?_, nofun, nofun⟩, by decide⟩
  intro user password h
  cases h
  decide

/-- An '@' in the path: the host is what stands behind it. -/
theorem pathAsHost : ¬ SplitRight .plain (ascii "http") ⟨none, ascii "good", none⟩
    (ascii "/@evil/") := by
  rintro ⟨path, -, hok⟩
  have hparsed : RequestUriStrings.plain.parseRequestUri (ascii "http://good/@evil/") =
      .ok (.absoluteURI ⟨ascii "http", ⟨⟨some (ascii "good/"), none⟩, ascii "evil", 0⟩,
        ⟨ascii "/", [], some []⟩⟩) := by decide
  have htext : ascii "http" ++ ascii "://" ++
      AuthorityParts.bytes ⟨none, ascii "good", none⟩ ++ ascii "/@evil/" =
        ascii "http://good/@evil/" := by decide
  rw [htext, hparsed] at hok
  simp [AuthorityParts.value] at hok

end SimpleServer.Http
