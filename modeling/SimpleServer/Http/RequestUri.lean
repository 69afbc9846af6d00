import Mathlib.Data.FinEnum
import SimpleServer.Http.Uri
import SimpleServer.Lib.Decimal
import SimpleServer.Lib.Occurrence

/-!
# Request URIs (`uri.c`)

`parse_request_uri` and `get_request_uri_as_string`. A request URI is an asterisk, an absolute
URI, a path or an authority. The functions of the string library are a parameter
(`RequestUriStrings`), as is the order in which a map gives its entries (`SearchPathOrder`).
Memory is found.
-/

namespace SimpleServer.Http

open Lib

/-- `UriStrings` with `tstr_split` for a separator of several bytes. -/
structure RequestUriStrings extends UriStrings where
  tstrSplitText : Bytes → Bytes → Option (Bytes × Bytes)

/-- The string library: `tstr_split` splits at the first separator, `tstr_view_to_int` reads
decimal numbers. -/
structure RequestUriStrings.Lawful (strings : RequestUriStrings) : Prop where
  split : ∀ str separator, strings.tstrSplit str separator = splitFirst [separator] str
  splitText : ∀ str separator, strings.tstrSplitText str separator = splitFirst separator str
  toInt : ∀ text, IsDecimal text → decimalValue text < 2 ^ 31 →
    strings.tstrViewToInt text = some (decimalValue text : ℤ)

/-- The first occurrences, and decimal numbers of an `int`. -/
def RequestUriStrings.plain : RequestUriStrings where
  tstrSplit str separator := splitFirst [separator] str
  tstrSplit_eq _ _ _ _ h := splitFirst_eq_some h
  tstrViewToInt text :=
    if text ≠ [] ∧ (∀ c ∈ text, IsDigit c) ∧ decimalValue text < 2 ^ 31 then
      some (decimalValue text)
    else none
  tstrSplitText str separator := splitFirst separator str

theorem RequestUriStrings.plain_lawful : RequestUriStrings.plain.Lawful where
  split _ _ := rfl
  splitText _ _ := rfl
  toInt _ h hsmall := if_pos ⟨h.ne_nil, h.digits, hsmall⟩

structure ParsedURI where
  scheme : Bytes
  authority : ParsedAuthority
  path : ParsedURLPath
deriving Repr, DecidableEq

inductive ParsedRequestURI where
  | asterisk
  | absoluteURI (uri : ParsedURI)
  | absPath (path : ParsedURLPath)
  | authority (authority : ParsedAuthority)
deriving Repr, DecidableEq

/-- `ParsedRequestUriResult`. `unreachable` stands for `UNREACHABLE`, which ends the program. -/
inductive ParsedRequestUriResult where
  | ok (uri : ParsedRequestURI)
  | error (error : String)
  | unreachable
deriving Repr, DecidableEq

/-! ## Parsing -/

/-- `SCHEME_SEPERATOR`. -/
def schemeSeperator : Bytes := ascii "://"

/-- The path when nothing stands there. -/
def emptyPath : ParsedURLPath := ⟨ascii "/", [], none⟩

namespace RequestUriStrings

variable (strings : RequestUriStrings)

def parseUriOrAuthority (path : Bytes) : ParsedRequestUriResult :=
  match strings.tstrSplitText path schemeSeperator with
  | none =>
    match strings.parseAuthority path with
    | none => .error "Authority parse error: not a valid authority"
    | some (authority, after) =>
      if after.length ≠ 0 then
        .error ("Authority parse error: we got more data after the authority, but no scheme " ++
          "(<scheme>://), so this is a URI missing that scheme or an invalid authority")
      else .ok (.authority authority)
  | some (scheme, currentView) =>
    match strings.parseAuthority currentView with
    | none => .error "Authority parse error: not a valid authority"
    | some (authority, afterAuthority) =>
      if afterAuthority.length = 0 then .ok (.absoluteURI ⟨scheme, authority, emptyPath⟩)
      else
        match strings.parseUrlPath afterAuthority with
        | none => .unreachable
        | some parsedPath => .ok (.absoluteURI ⟨scheme, authority, parsedPath⟩)

def parseRequestUri (path : Bytes) : ParsedRequestUriResult :=
  if path.length = 0 then .ok (.absPath emptyPath)
  else if path.length = 1 ∧ path.headD 0 = 0x2A then .ok .asterisk
  else if path.headD 0 = 0x2F then
    match strings.parseUrlPath path with
    | none => .unreachable
    | some parsedPath => .ok (.absPath parsedPath)
  else strings.parseUriOrAuthority path

end RequestUriStrings

/-! ## Printing -/

/-- The order in which `TMAP_ITER_NEXT` gives the entries of a search path. -/
structure SearchPathOrder where
  iterate : List (Bytes × Bytes) → List (Bytes × Bytes)
  perm : ∀ entries, (iterate entries).Perm entries

/-- What `string_builder_append_single` takes of a `tstr`: the bytes before the first zero. -/
def tstrCstr (str : Bytes) : Bytes := str.takeWhile fun c => c ≠ 0

/-- The loop over the search parameters. It sets `start` to what it was. -/
def searchPathAsString : Bool → List (Bytes × Bytes) → Bytes
  | _, [] => []
  | start, (key, val) :: rest =>
    (if ¬ start then ascii "&" else []) ++ tstrCstr key ++
      (if val.length ≠ 0 then ascii "=" ++ tstrCstr val else []) ++ searchPathAsString true rest

def getParsedUrlAsString (order : SearchPathOrder) (path : ParsedURLPath) : Bytes :=
  tstrCstr path.path ++
    if path.searchPath.isEmpty then []
    else ascii "?" ++ searchPathAsString true (order.iterate path.searchPath)

/-- `get_parsed_authority_as_string`. A `tstr` that is null is empty as a C string. -/
def getParsedAuthorityAsString (authority : ParsedAuthority) : Bytes :=
  (match authority.userInfo.username with
    | none => []
    | some username =>
      tstrCstr username ++
        (if authority.userInfo.password = none then
          ascii ":" ++ tstrCstr (authority.userInfo.password.getD [])
        else []) ++ ascii "@") ++
    tstrCstr authority.host ++
    if authority.port ≠ 0 then ascii ":" ++ decimalText authority.port.toNat else []

/-- `get_uri_as_string`, for an authority whose host is there. -/
def getUriAsString (order : SearchPathOrder) (uri : ParsedURI) : Bytes :=
  tstrCstr uri.scheme ++ ascii "://" ++ tstrCstr (getParsedAuthorityAsString uri.authority) ++
    tstrCstr (getParsedUrlAsString order uri.path)

def getRequestUriAsString (order : SearchPathOrder) : ParsedRequestURI → Bytes
  | .asterisk => ascii "*"
  | .absoluteURI uri => getUriAsString order uri
  | .absPath path => getParsedUrlAsString order path
  | .authority authority => getParsedAuthorityAsString authority

end SimpleServer.Http
