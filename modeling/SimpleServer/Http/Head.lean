import SimpleServer.Http.ParserStrings

/-!
# The head of a request

`parseHead` is the part of `parser.c` up to the end of the headers. Against it stand the bytes
of a head, as a client writes them: three words with one space between them, and fields with
any number of blanks around their values.

* `HeadText`: what a head says, and how it is written down.
* `getHttpRequest_head`: a request that is delivered has the head that `parseHead` reads.
-/

namespace SimpleServer.Http

open Lib Utils Hpack Http2

variable {Uri : Type}

/-! ## Reading a head -/

/-- The request line and the headers. -/
def parseHead (p : HeadParser Uri) (reader : BufferedReader) :
    BufferedReader × Except HttpRequestError (HttpRequestLine Uri × List HttpHeaderField) :=
  match parseHttp1RequestLine p reader with
  | (reader, result) =>
    match result.toExcept with
    | .error e => (reader, .error e)
    | .ok requestLine =>
      match parseHeaders p reader with
      | (reader, .error e) => (reader, .error e)
      | (reader, .ok headerFields) => (reader, .ok (requestLine, headerFields))

/-- The request that an outcome carries. -/
def HttpOutcome.request : HttpOutcome Uri → Option (Http1Request Uri)
  | .ok request | .http2Upgrade request _ => some request
  | _ => none

theorem finishHttp1Request_request {request request' : Http1Request Uri}
    {connection : HttpAnalyzeConnection} {firstRequest : Bool}
    (h : (finishHttp1Request request connection firstRequest).request = some request') :
    request' = request := by
  unfold finishHttp1Request at h
  by_cases hbody : methodWithoutBody request.requestLine.method ∧ request.body.length ≠ 0
  · rw [if_pos hbody] at h
    cases h
  · rw [if_neg hbody] at h
    cases connection with
    | nothingSpecial => exact (Option.some.inj h).symm
    | keepAlive => exact (Option.some.inj h).symm
    | upgradeH2c settings =>
      cases firstRequest with
      | false => cases h
      | true => exact (Option.some.inj h).symm

theorem parseHttp1Request_head {p : HeadParser Uri} {requestLine : HttpRequestLine Uri}
    {reader : BufferedReader} {firstRequest : Bool} {request : Http1Request Uri}
    (h : (parseHttp1Request p requestLine reader firstRequest).2.request = some request) :
    request.requestLine = requestLine ∧
      (parseHeaders p reader).2 = .ok request.headerFields := by
  unfold parseHttp1Request at h
  split at h
  · cases h
  · rename_i headerFields heq
    have hfields : (parseHeaders p reader).2 = .ok headerFields := congrArg Prod.snd heq
    split at h
    · cases h
    · split at h
      · cases h
      · rw [finishHttp1Request_request h]
        exact ⟨rfl, hfields⟩

theorem checkNothingLeft_request {reader : HTTPReader} {outcome : HttpOutcome Uri}
    {request : Http1Request Uri}
    (h : (checkNothingLeft reader outcome).2.request = some request) :
    outcome.request = some request := by
  unfold checkNothingLeft at h
  split_ifs at h
  · exact h
  · cases h

theorem parseFirstHttp1Request_head {p : HeadParser Uri} {reader : HTTPReader}
    {requestLine : HttpRequestLine Uri} {request : Http1Request Uri}
    (h : (parseFirstHttp1Request p reader requestLine).2.request = some request) :
    request.requestLine = requestLine ∧
      (parseHeaders p reader.bufferedReader).2 = .ok request.headerFields := by
  unfold parseFirstHttp1Request at h
  split at h
  · cases h
  · split at h
    · rename_i heq
      apply @parseHttp1Request_head _ _ _ _ true
      rw [heq]
      exact h
    · rename_i heq
      apply @parseHttp1Request_head _ _ _ _ true
      rw [heq]
      exact checkNothingLeft_request h

theorem startHttp2_request {p : HeadParser Uri} {reader : HTTPReader}
    {requestLine : HttpRequestLine Uri} {agreed : Bool} :
    (startHttp2 p reader requestLine agreed).2.request = none := by
  unfold startHttp2
  split <;> rfl

theorem parseFirstHttpRequest_head {p : HeadParser Uri} {reader : HTTPReader}
    {request : Http1Request Uri}
    (h : (parseFirstHttpRequest p reader).2.request = some request) :
    (parseHead p reader.bufferedReader).2 = .ok (request.requestLine, request.headerFields) := by
  unfold parseFirstHttpRequest at h
  unfold parseHead
  dsimp only at h ⊢
  cases hline : (parseHttp1RequestLine p reader.bufferedReader).2.toExcept with
  | error e =>
    rw [hline] at h
    cases h
  | ok requestLine =>
    rw [hline] at h
    -- only a request of HTTP/1 carries a request
    have hfirst : (parseFirstHttp1Request p
        { reader with bufferedReader := (parseHttp1RequestLine p reader.bufferedReader).1 }
        requestLine).2.request = some request := by
      dsimp only at h
      split at h
      · split_ifs at h
        · cases h
        · exact h
      · rw [startHttp2_request] at h
        cases h
      · split_ifs at h
        · rw [startHttp2_request] at h
          cases h
        · exact h
    obtain ⟨hrequest, hfields⟩ := parseFirstHttp1Request_head hfirst
    dsimp only at hfields ⊢
    rw [← hrequest]
    cases hheaders : parseHeaders p (parseHttp1RequestLine p reader.bufferedReader).1 with
    | mk reader' result =>
      rw [hheaders] at hfields
      dsimp only at hfields ⊢
      rw [hfields]

/-- **A request that is delivered has the head that was read.** -/
theorem getHttpRequest_head {p : HeadParser Uri} {reader : HTTPReader} {request : Http1Request Uri}
    (h : (getHttpRequest p reader).2.request = some request) :
    (parseHead p reader.bufferedReader).2 = .ok (request.requestLine, request.headerFields) := by
  unfold getHttpRequest at h
  split at h
  · have hfirst := @parseFirstHttpRequest_head _ p { reader with state := .reading } request h
    exact hfirst
  · split at h <;> cases h
  · cases h
  · cases h

/-! ## Writing a head -/

def methodText : HTTPRequestMethod → Bytes
  | .get => ascii "GET"
  | .post => ascii "POST"
  | .head => ascii "HEAD"
  | .options => ascii "OPTIONS"
  | .connect => ascii "CONNECT"
  | .pri => ascii "PRI"

def versionText : HTTPProtocolVersion → Bytes
  | .v1Dot0 => ascii "HTTP/1.0"
  | .v1Dot1 => ascii "HTTP/1.1"
  | .v2 => ascii "HTTP/2.0"

theorem getHttpMethodFromString_eq_some {text : Bytes} {method : HTTPRequestMethod} :
    getHttpMethodFromString text = some method ↔ text = methodText method := by
  constructor
  · intro h
    unfold getHttpMethodFromString at h
    split_ifs at h <;> cases h <;> assumption
  · rintro rfl
    cases method <;> decide

theorem getProtocolVersionFromString_eq_some {text : Bytes} {version : HTTPProtocolVersion} :
    getProtocolVersionFromString text = some version ↔ text = versionText version := by
  constructor
  · intro h
    unfold getProtocolVersionFromString at h
    split_ifs at h <;> cases h <;> assumption
  · rintro rfl
    cases version <;> decide

theorem space_notMem_methodText (method : HTTPRequestMethod) : 0x20 ∉ methodText method := by
  cases method <;> decide

theorem space_notMem_versionText (version : HTTPProtocolVersion) :
    0x20 ∉ versionText version := by
  cases version <;> decide

/-- A character of a token. -/
def IsTokenChar (c : UInt8) : Prop :=
  0x30 ≤ c ∧ c ≤ 0x39 ∨ 0x41 ≤ c ∧ c ≤ 0x5A ∨ 0x61 ≤ c ∧ c ≤ 0x7A ∨ c ∈ ascii "!#$%&'*+-.^_`|~"

instance : DecidablePred IsTokenChar := fun c => by
  unfold IsTokenChar
  infer_instance

/-- A header field, and the blanks around its value. -/
structure FieldText where
  name : Bytes
  before : Bytes
  value : Bytes
  after : Bytes
deriving Repr, DecidableEq

def FieldText.line (field : FieldText) : Bytes :=
  field.name ++ 0x3A :: (field.before ++ (field.value ++ field.after))

/-- The field that was meant. -/
def FieldText.field (field : FieldText) : HttpHeaderField := ⟨field.name, field.value⟩

/-- A name that is a token, and a value between blanks that neither starts nor ends with one. -/
structure FieldText.Valid (blank : UInt8 → Prop) (field : FieldText) : Prop where
  name_ne : field.name ≠ []
  token : ∀ c ∈ field.name, IsTokenChar c
  before_blank : ∀ c ∈ field.before, blank c
  after_blank : ∀ c ∈ field.after, blank c
  starts : ∀ c ∈ field.value.head?, ¬ blank c
  ends : ∀ c ∈ field.value.getLast?, ¬ blank c
  noReturn : 0x0D ∉ field.before ++ (field.value ++ field.after)
  noFeed : 0x0A ∉ field.before ++ (field.value ++ field.after)

/-- What the head of a request says. -/
structure HeadText where
  method : HTTPRequestMethod
  target : Bytes
  version : HTTPProtocolVersion
  fields : List FieldText
deriving Repr, DecidableEq

def HeadText.requestLine (head : HeadText) : Bytes :=
  methodText head.method ++ 0x20 :: (head.target ++ 0x20 :: versionText head.version)

/-- Lines, each with its line end. -/
def linesText (lines : List Bytes) : Bytes := lines.flatMap (· ++ httpLineSeperators)

def HeadText.bytes (head : HeadText) : Bytes :=
  linesText (head.requestLine :: head.fields.map FieldText.line) ++ httpLineSeperators

structure HeadText.Valid (blank : UInt8 → Prop) (head : HeadText) : Prop where
  target : 0x20 ∉ head.target
  fields : ∀ field ∈ head.fields, field.Valid blank

end SimpleServer.Http
