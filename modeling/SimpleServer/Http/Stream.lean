import SimpleServer.Http.Parser
import SimpleServer.Utils.LineSpec

/-!
# The request of a byte stream

What `getHttpRequest` makes of a connection, as a function of the bytes of the client: the
lines, the headers, the body and what comes after them, without a buffer (`requestOf`,
`firstOf`).

* `parseHeaders_spec`, `getHttpBody_spec`: the loops over the buffered reader compute this.
* `parseFirstHttpRequest_spec`: so does the whole, up to the look at what is left in the buffer.
-/

namespace SimpleServer.Http

open Utils Hpack Http2

variable {Uri : Type} {p : HeadParser Uri} {reader : BufferedReader}

/-! ## The abstract request -/

/-- A line and what comes after it. -/
def lineOf (stream : Bytes) : Option (Bytes × Bytes) :=
  (scan httpLineSeperators stream 0).map fun n =>
    (stream.take (n - httpLineSeperators.length), stream.drop n)

/-- The header lines of a stream: it ends before they do, one of them is no field, or these
are the fields. -/
inductive StreamHead where
  | unfinished
  | badField (rest : Bytes)
  | fields (headerFields : List HttpHeaderField) (rest : Bytes)

def headLoop (p : HeadParser Uri) : ℕ → Bytes → List HttpHeaderField → StreamHead
  | 0, _, _ => .unfinished
  | fuel + 1, stream, headerFields =>
    match lineOf stream with
    | none => .unfinished
    | some (line, rest) =>
      if line.length = 0 then .fields headerFields rest
      else
        match parseHeaderLine p line with
        | none => .badField rest
        | some field => headLoop p fuel rest (headerFields ++ [field])

def headOf (p : HeadParser Uri) (stream : Bytes) : StreamHead :=
  headLoop p (stream.length + 1) stream []

/-- The body of a stream, and what comes after it, unless the stream is at its end. -/
def bodyOf (stream : Bytes) : HTTPRequestLength → Except String Bytes × Option Bytes
  | .close => (.ok stream, none)
  | .contentLength length =>
    if length ≤ stream.length then (.ok (stream.take length), some (stream.drop length))
    else (.error "read failed", none)
  | .transferEncoded => (.error "transfer encoding not yet implemented", some stream)
  | .noBody => (.ok [], some stream)

/-- What a stream is read as. -/
structure StreamRequest (Uri : Type) where
  outcome : HttpOutcome Uri
  /-- What comes after the request, unless the stream is at its end. -/
  rest : Option Bytes
  /-- The length of the body. -/
  bodyLength : ℕ

/-- The request behind a request line. -/
def requestOf (p : HeadParser Uri) (requestLine : HttpRequestLine Uri) (stream : Bytes) :
    StreamRequest Uri :=
  match headOf p stream with
  | .unfinished => ⟨.error (.advanced "Failed to parse headers"), none, 0⟩
  | .badField rest => ⟨.error (.advanced "Failed to parse header key"), some rest, 0⟩
  | .fields headerFields rest =>
    match httpAnalyzeHeaders p requestLine.version headerFields with
    | .error e => ⟨.error (.enumValue (analyzeErrorType e)), some rest, 0⟩
    | .ok analyze =>
      match bodyOf rest analyze.length with
      | (.error e, rest) => ⟨.error (.advanced e), rest, 0⟩
      | (.ok body, rest) =>
        ⟨finishHttp1Request ⟨requestLine, headerFields, body⟩ analyze.connection true, rest,
          body.length⟩

/-- What the first bytes of a connection are read as. -/
structure FirstOutcome (Uri : Type) extends StreamRequest Uri where
  /-- The code looks at what is left in the buffer. -/
  checked : Bool

/-- An outcome that is final, with the stream behind the bytes that were taken. -/
def FirstOutcome.final (outcome : HttpOutcome Uri) (rest : Option Bytes) : FirstOutcome Uri :=
  ⟨⟨outcome, rest, 0⟩, false⟩

/-- The first request, after a request line of HTTP/1. -/
def http1Of (p : HeadParser Uri) (requestLine : HttpRequestLine Uri) (stream : Bytes) :
    FirstOutcome Uri :=
  match requestLineError p requestLine with
  | some e => .final (.error e) (some stream)
  | none =>
    ⟨requestOf p requestLine stream, !(requestOf p requestLine stream).outcome.isHttp2⟩

/-- The first request, after the request line of a preface. -/
def prefaceOf (p : HeadParser Uri) (requestLine : HttpRequestLine Uri) (stream : Bytes)
    (agreed : Bool) : FirstOutcome Uri :=
  let size := http2ClientPrefaceAfterHttp1StatusLine.length
  if requestLine.version = .v2 ∧ requestLine.method = .pri ∧
      p.uriType requestLine.uri = .asterisk ∧ size ≤ stream.length ∧
      stream.take size = http2ClientPrefaceAfterHttp1StatusLine then
    .final (.http2Preface agreed) (some (stream.drop size))
  else .final (.error (.enumValue .invalidHttp2Preface)) none

/-- The first request of a connection. -/
def firstOf (p : HeadParser Uri) (protocol : ProtocolSelected) (stream : Bytes) :
    FirstOutcome Uri :=
  match lineOf stream with
  | none => .final (.error (.advanced "failed to parse request line")) none
  | some (line, rest) =>
    match (parseRequestLine p line).toExcept with
    | .error e => .final (.error e) (some rest)
    | .ok requestLine =>
      match protocol with
      | .http1Dot1 =>
        if requestLine.version = .v2 then
          .final (.error (.enumValue .invalidHttpVersion)) (some rest)
        else http1Of p requestLine rest
      | .http2 => prefaceOf p requestLine rest true
      | .none =>
        if requestLine.version = .v2 then prefaceOf p requestLine rest false
        else http1Of p requestLine rest

/-! ## Lines -/

/-- The reader stands before these bytes, or at the end of the stream. -/
def Stands (reader : BufferedReader) : Option Bytes → Prop
  | some rest => reader.Steady ∧ reader.unread = rest
  | none => reader.state = .closed

theorem lineOf_length {stream line rest : Bytes} (h : lineOf stream = some (line, rest)) :
    ∃ n, scan httpLineSeperators stream 0 = some n ∧ rest = stream.drop n ∧ 0 < n ∧
      rest.length + n = stream.length := by
  obtain ⟨n, hn, heq⟩ := Option.map_eq_some_iff.1 h
  obtain ⟨-, rfl⟩ := Prod.mk.inj heq
  obtain ⟨hpos, hle⟩ := scan_le hn
  refine ⟨n, hn, rfl, hpos, ?_⟩
  rw [List.length_drop]
  omega

theorem getLine_some (h : reader.Steady) {line rest : Bytes}
    (hline : lineOf reader.unread = some (line, rest)) :
    ∃ reader', bufferedReaderGetUntilDelimiter reader httpLineSeperators = (reader', .ok line) ∧
      Stands reader' (some rest) ∧
      (reader.ahead.length < bufferedReaderChunkSize →
        reader'.ahead.length < bufferedReaderChunkSize) := by
  obtain ⟨n, hn, heq⟩ := Option.map_eq_some_iff.1 hline
  obtain ⟨rfl, rfl⟩ := Prod.mk.inj heq
  obtain ⟨reader', hread, hforward, hahead⟩ := getUntilDelimiter_found h hn
  exact ⟨reader', hread, ⟨hforward.steady, hforward.unread h.toReady⟩, hahead⟩

theorem getLine_none (h : reader.Steady) (hline : lineOf reader.unread = none) :
    ∃ reader', bufferedReaderGetUntilDelimiter reader httpLineSeperators = (reader', .eof) ∧
      Stands reader' none := by
  obtain ⟨heof, hclosed⟩ := getUntilDelimiter_none h (Option.map_eq_none_iff.1 hline)
  exact ⟨_, Prod.ext rfl heof, hclosed⟩

/-! ## The headers -/

/-- What the loop over the header lines answers. -/
def StreamHead.result : StreamHead → Except HttpRequestError (List HttpHeaderField)
  | .unfinished => .error (.advanced "Failed to parse headers")
  | .badField _ => .error (.advanced "Failed to parse header key")
  | .fields headerFields _ => .ok headerFields

/-- Where it leaves the stream. -/
def StreamHead.rest : StreamHead → Option Bytes
  | .unfinished => none
  | .badField rest => some rest
  | .fields _ rest => some rest

theorem parseHeadersLoop_spec (fuel : ℕ) (h : reader.Steady) (headerFields : List HttpHeaderField)
    (hfuel : reader.unread.length < fuel) (hahead : reader.ahead.length < bufferedReaderChunkSize) :
    (parseHeadersLoop p fuel reader headerFields).2 =
        (headLoop p fuel reader.unread headerFields).result ∧
      Stands (parseHeadersLoop p fuel reader headerFields).1
        (headLoop p fuel reader.unread headerFields).rest ∧
      ((headLoop p fuel reader.unread headerFields).rest ≠ none →
        (parseHeadersLoop p fuel reader headerFields).1.ahead.length <
          bufferedReaderChunkSize) := by
  induction fuel generalizing reader headerFields with
  | zero => exact absurd hfuel (Nat.not_lt_zero _)
  | succ fuel ih =>
    unfold parseHeadersLoop headLoop
    cases hline : lineOf reader.unread with
    | none =>
      obtain ⟨reader', hread, hstands⟩ := getLine_none h hline
      rw [hread]
      exact ⟨rfl, hstands, fun hne => absurd rfl hne⟩
    | some lr =>
      obtain ⟨line, rest⟩ := lr
      obtain ⟨reader', hread, ⟨hsteady, hunread⟩, hahead'⟩ := getLine_some h hline
      have hahead' := hahead' hahead
      rw [hread]
      dsimp only
      by_cases hempty : line.length = 0
      · rw [if_pos hempty, if_pos hempty]
        exact ⟨rfl, ⟨hsteady, hunread⟩, fun _ => hahead'⟩
      · rw [if_neg hempty, if_neg hempty]
        cases hfield : parseHeaderLine p line with
        | none => exact ⟨rfl, ⟨hsteady, hunread⟩, fun _ => hahead'⟩
        | some field =>
          obtain ⟨n, -, -, hpos, hlen⟩ := lineOf_length hline
          rw [← hunread] at hlen ⊢
          exact ih hsteady _ (by omega) hahead'

theorem parseHeaders_spec (h : reader.Steady)
    (hahead : reader.ahead.length < bufferedReaderChunkSize) :
    (parseHeaders p reader).2 = (headOf p reader.unread).result ∧
      Stands (parseHeaders p reader).1 (headOf p reader.unread).rest ∧
      ((headOf p reader.unread).rest ≠ none →
        (parseHeaders p reader).1.ahead.length < bufferedReaderChunkSize) := by
  unfold parseHeaders
  rw [searchFuel h]
  exact parseHeadersLoop_spec _ h [] (Nat.lt_succ_self _) hahead

theorem headLoop_rest {fuel : ℕ} {stream rest : Bytes} {headerFields : List HttpHeaderField}
    (h : (headLoop p fuel stream headerFields).rest = some rest) :
    rest.length < stream.length := by
  induction fuel generalizing stream headerFields with
  | zero => cases h
  | succ fuel ih =>
    unfold headLoop at h
    cases hline : lineOf stream with
    | none =>
      rw [hline] at h
      cases h
    | some lr =>
      obtain ⟨line, rest'⟩ := lr
      obtain ⟨n, -, -, hpos, hcount⟩ := lineOf_length hline
      rw [hline] at h
      dsimp only at h
      by_cases hempty : line.length = 0
      · rw [if_pos hempty] at h
        obtain rfl : rest' = rest := Option.some.inj h
        omega
      · rw [if_neg hempty] at h
        cases hfield : parseHeaderLine p line with
        | none =>
          rw [hfield] at h
          obtain rfl : rest' = rest := Option.some.inj h
          omega
        | some field =>
          rw [hfield] at h
          have := ih h
          omega

/-- When the bytes of the head come one by one, and the last one of them with others, then
these are left in the buffer. -/
theorem parseHeadersLoop_chunk (fuel : ℕ) {xs c rest : Bytes} {b : UInt8} {more : List Incoming}
    (h : reader.Steady) (hahead : reader.ahead = [])
    (hin : reader.incoming = singles xs ++ .bytes b c :: more)
    (hc : c.length < bufferedReaderChunkSize) (headerFields : List HttpHeaderField)
    (hrest : (headLoop p fuel reader.unread headerFields).rest = some rest)
    (hlen : reader.unread.length = xs.length + 1 + rest.length) :
    (parseHeadersLoop p fuel reader headerFields).1.ahead = c := by
  induction fuel generalizing reader headerFields xs with
  | zero => cases hrest
  | succ fuel ih =>
    unfold parseHeadersLoop
    unfold headLoop at hrest
    cases hline : lineOf reader.unread with
    | none =>
      rw [hline] at hrest
      cases hrest
    | some lr =>
      obtain ⟨line, rest'⟩ := lr
      obtain ⟨n, hscan, hdrop, hpos, hcount⟩ := lineOf_length hline
      obtain ⟨reader', hread, ⟨hsteady, hunread⟩, -⟩ := getLine_some h hline
      have hfirst : (bufferedReaderGetUntilDelimiter reader httpLineSeperators).1 = reader' := by
        rw [hread]
      rw [hline] at hrest
      rw [hread]
      dsimp only at hrest ⊢
      -- a line that is not the last one ends before the last byte of the head
      have hlast : rest' = rest → reader'.ahead = c := by
        rintro rfl
        obtain rfl : n = xs.length + 1 := by omega
        rw [← hfirst]
        exact (getUntilDelimiter_chunk h hahead hin hc hscan).1
      by_cases hempty : line.length = 0
      · rw [if_pos hempty] at hrest ⊢
        exact hlast (Option.some.inj hrest)
      · rw [if_neg hempty] at hrest ⊢
        cases hfield : parseHeaderLine p line with
        | none =>
          rw [hfield] at hrest
          exact hlast (Option.some.inj hrest)
        | some field =>
          rw [hfield] at hrest
          dsimp only at hrest ⊢
          have hmore := headLoop_rest hrest
          have hn : n ≤ xs.length := by omega
          obtain ⟨hahead', hin'⟩ := getUntilDelimiter_singles h hahead hin hscan hn
          rw [hfirst] at hahead' hin'
          rw [← hunread] at hrest hcount
          refine ih hsteady hahead' hin' _ hrest ?_
          rw [List.length_drop]
          omega

theorem parseHeaders_chunk {xs c rest : Bytes} {b : UInt8} {more : List Incoming}
    (h : reader.Steady) (hahead : reader.ahead = [])
    (hin : reader.incoming = singles xs ++ .bytes b c :: more)
    (hc : c.length < bufferedReaderChunkSize)
    (hrest : (headOf p reader.unread).rest = some rest)
    (hlen : reader.unread.length = xs.length + 1 + rest.length) :
    (parseHeaders p reader).1.ahead = c := by
  unfold parseHeaders
  rw [searchFuel h]
  exact parseHeadersLoop_chunk _ h hahead hin hc [] hrest hlen

/-! ## The body -/

/-- The body is the one of the stream, and what is left in the buffer behind it is what was
there before. -/
theorem getHttpBody_spec (h : reader.Steady) (length : HTTPRequestLength) :
    (getHttpBody reader length).2 = (bodyOf reader.unread length).1 ∧
      Stands (getHttpBody reader length).1 (bodyOf reader.unread length).2 ∧
      ∀ rest, (bodyOf reader.unread length).2 = some rest →
        (getHttpBody reader length).1.ahead =
          reader.ahead.drop (reader.unread.length - rest.length) := by
  cases length with
  | noBody =>
    refine ⟨rfl, ⟨h, rfl⟩, ?_⟩
    rintro rest ⟨⟩
    rw [Nat.sub_self, List.drop_zero]
    rfl
  | transferEncoded =>
    refine ⟨rfl, ⟨h, rfl⟩, ?_⟩
    rintro rest ⟨⟩
    rw [Nat.sub_self, List.drop_zero]
    rfl
  | close =>
    obtain ⟨hok, hclosed⟩ := getUntilEnd_ok h
    have hread : bufferedReaderGetUntilEnd reader =
        ((bufferedReaderGetUntilEnd reader).1, .ok reader.unread) := Prod.ext rfl hok
    unfold getHttpBody bodyOf
    dsimp only
    rw [hread]
    exact ⟨rfl, hclosed, nofun⟩
  | contentLength length =>
    unfold getHttpBody bodyOf
    dsimp only
    by_cases hle : length ≤ reader.unread.length
    · obtain ⟨reader', hread, hforward, hahead⟩ := getAmount_forward h hle
      rw [if_pos hle, hread]
      refine ⟨rfl, ⟨hforward.steady, hforward.unread h.toReady⟩, ?_⟩
      rintro rest ⟨⟩
      rw [List.length_drop, Nat.sub_sub_self hle]
      exact hahead
    · obtain ⟨heof, hclosed⟩ := getAmount_short h (not_le.1 hle)
      have hread : bufferedReaderGetAmount reader length =
          ((bufferedReaderGetAmount reader length).1, .eof) := Prod.ext rfl heof
      rw [if_neg hle, hread]
      exact ⟨rfl, hclosed, nofun⟩

theorem bodyOf_ok {stream body rest : Bytes} {length : HTTPRequestLength}
    (h : bodyOf stream length = (.ok body, some rest)) :
    body.length + rest.length = stream.length := by
  cases length with
  | noBody =>
    cases h
    exact Nat.zero_add _
  | transferEncoded => cases h
  | close => cases h
  | contentLength length =>
    unfold bodyOf at h
    dsimp only at h
    by_cases hle : length ≤ stream.length
    · rw [if_pos hle] at h
      cases h
      rw [List.length_take, List.length_drop]
      omega
    · rw [if_neg hle] at h
      cases h

theorem bodyOf_error {stream rest : Bytes} {length : HTTPRequestLength} {e : String}
    (h : bodyOf stream length = (.error e, some rest)) : rest = stream := by
  cases length with
  | noBody => cases h
  | transferEncoded =>
    cases h
    rfl
  | close => cases h
  | contentLength length =>
    unfold bodyOf at h
    dsimp only at h
    by_cases hle : length ≤ stream.length
    · rw [if_pos hle] at h
      cases h
    · rw [if_neg hle] at h
      cases h

/-! ## The request -/

/-- **The request of a stream** is the one of `parse_http1_request`, whatever the buffer does.
What is left in it is what the search for the end of the head has left there, without the
body. -/
theorem parseHttp1Request_spec (h : reader.Steady)
    (hahead : reader.ahead.length < bufferedReaderChunkSize) (requestLine : HttpRequestLine Uri) :
    (parseHttp1Request p requestLine reader true).2 =
        (requestOf p requestLine reader.unread).outcome ∧
      Stands (parseHttp1Request p requestLine reader true).1
        (requestOf p requestLine reader.unread).rest ∧
      ((requestOf p requestLine reader.unread).rest ≠ none →
        (parseHeaders p reader).1.ahead.length < bufferedReaderChunkSize ∧
          (parseHttp1Request p requestLine reader true).1.ahead =
            (parseHeaders p reader).1.ahead.drop
              (requestOf p requestLine reader.unread).bodyLength) := by
  obtain ⟨hresult, hstands, hshort⟩ := parseHeaders_spec (p := p) h hahead
  have hhead : parseHeaders p reader =
      ((parseHeaders p reader).1, (headOf p reader.unread).result) := Prod.ext rfl hresult
  unfold parseHttp1Request requestOf
  rw [hhead]
  cases hcase : headOf p reader.unread with
  | unfinished =>
    rw [hcase] at hstands
    exact ⟨rfl, hstands, fun hne => absurd rfl hne⟩
  | badField rest =>
    rw [hcase] at hstands hshort
    exact ⟨rfl, hstands, fun _ => ⟨hshort nofun, rfl⟩⟩
  | fields headerFields rest =>
    rw [hcase] at hstands hshort
    have hshort := hshort nofun
    obtain ⟨hsteady, hunread⟩ := hstands
    dsimp only [StreamHead.result]
    cases httpAnalyzeHeaders p requestLine.version headerFields with
    | error e => exact ⟨rfl, ⟨hsteady, hunread⟩, fun _ => ⟨hshort, rfl⟩⟩
    | ok analyze =>
      obtain ⟨hbody, hafter, hleft⟩ := getHttpBody_spec hsteady analyze.length
      rw [hunread] at hbody hafter hleft
      have hread : getHttpBody (parseHeaders p reader).1 analyze.length =
          ((getHttpBody (parseHeaders p reader).1 analyze.length).1,
            (bodyOf rest analyze.length).1) := Prod.ext rfl hbody
      dsimp only
      rw [hread]
      cases hof : bodyOf rest analyze.length with
      | mk result after =>
        rw [hof] at hafter hleft
        dsimp only at hafter hleft ⊢
        cases result with
        | error e =>
          refine ⟨rfl, hafter, ?_⟩
          intro hne
          obtain ⟨rest', rfl⟩ := Option.ne_none_iff_exists'.1 hne
          rw [bodyOf_error hof] at hleft
          have hsame := hleft rest rfl
          rw [Nat.sub_self] at hsame
          exact ⟨hshort, hsame⟩
        | ok body =>
          refine ⟨rfl, hafter, ?_⟩
          intro hne
          obtain ⟨rest', rfl⟩ := Option.ne_none_iff_exists'.1 hne
          refine ⟨hshort, ?_⟩
          rw [hleft rest' rfl, ← bodyOf_ok hof, Nat.add_sub_cancel]

theorem requestOf_outcome (p : HeadParser Uri) (requestLine : HttpRequestLine Uri)
    (stream : Bytes) : Http1Outcome (requestOf p requestLine stream).outcome := by
  unfold requestOf
  cases headOf p stream with
  | unfinished => exact .error _ nofun
  | badField rest => exact .error _ nofun
  | fields headerFields rest =>
    dsimp only
    cases httpAnalyzeHeaders p requestLine.version headerFields with
    | error e => cases e <;> exact .error _ nofun
    | ok analyze =>
      dsimp only
      cases bodyOf rest analyze.length with
      | mk result after =>
        cases result with
        | error e => exact .error _ nofun
        | ok body => exact finishHttp1Request_outcome _ _ _

/-- The bytes that are still to be read, unless the stream is at its end. -/
def remaining (reader : BufferedReader) : Option Bytes :=
  if reader.state = .closed then none else some reader.unread

theorem Stands.remaining {rest : Option Bytes} (h : Stands reader rest) :
    remaining reader = rest := by
  unfold Http.remaining
  cases rest with
  | none => rw [if_pos (show reader.state = .closed from h)]
  | some rest =>
    obtain ⟨hsteady, hunread⟩ := h
    have hopen : reader.state ≠ .closed := by
      rw [hsteady.state]
      nofun
    rw [if_neg hopen, hunread]

/-- What a call shows: its outcome and, if HTTP/2 takes over, the bytes it finds. -/
def observed (r : HTTPReader × HttpOutcome Uri) : HttpOutcome Uri × Option Bytes :=
  (r.2, if r.2.isHttp2 then remaining r.1.bufferedReader else none)

/-- The outcome of a first request: it is final, or the buffer is looked at. There `left` is
what the search for the end of the head has left in it. -/
structure FirstSpec (e : FirstOutcome Uri) (left : Bytes)
    (r : HTTPReader × HttpOutcome Uri) : Prop where
  final : e.checked = false →
    observed r = (e.outcome, if e.outcome.isHttp2 then e.rest else none)
  checked : e.checked = true → e.outcome.isHttp2 = false ∧
    ∃ reader : HTTPReader, r = checkNothingLeft reader e.outcome ∧
      Stands reader.bufferedReader e.rest ∧
      (e.rest ≠ none → left.length < bufferedReaderChunkSize ∧
        reader.bufferedReader.ahead = left.drop e.bodyLength)

theorem firstSpec_final {left : Bytes} {r : HTTPReader × HttpOutcome Uri}
    {request : StreamRequest Uri} (hr : r.2 = request.outcome)
    (hrest : request.outcome.isHttp2 = true → Stands r.1.bufferedReader request.rest) :
    FirstSpec ⟨request, false⟩ left r := by
  refine ⟨fun _ => ?_, nofun⟩
  unfold observed
  rw [hr]
  by_cases hhttp2 : request.outcome.isHttp2 = true
  · rw [if_pos hhttp2, if_pos hhttp2, (hrest hhttp2).remaining]
  · rw [if_neg hhttp2, if_neg hhttp2]

theorem parseFirstHttp1Request_spec (reader : HTTPReader) (h : reader.bufferedReader.Steady)
    (hahead : reader.bufferedReader.ahead.length < bufferedReaderChunkSize)
    (requestLine : HttpRequestLine Uri) :
    FirstSpec (http1Of p requestLine reader.bufferedReader.unread)
      (parseHeaders p reader.bufferedReader).1.ahead
      (parseFirstHttp1Request p reader requestLine) := by
  unfold http1Of parseFirstHttp1Request
  cases requestLineError p requestLine with
  | some e => exact firstSpec_final rfl nofun
  | none =>
    obtain ⟨houtcome, hstands, hleft⟩ := parseHttp1Request_spec (p := p) h hahead requestLine
    have hrun : parseHttp1Request p requestLine reader.bufferedReader true =
        ((parseHttp1Request p requestLine reader.bufferedReader true).1,
          (requestOf p requestLine reader.bufferedReader.unread).outcome) :=
      Prod.ext rfl houtcome
    dsimp only
    rw [hrun]
    have hshape := requestOf_outcome p requestLine reader.bufferedReader.unread
    generalize requestOf p requestLine reader.bufferedReader.unread = request at *
    obtain ⟨outcome, rest, bodyLength⟩ := request
    dsimp only at *
    cases hshape with
    | upgrade request settings => exact firstSpec_final rfl fun _ => hstands
    | ok request => exact ⟨nofun, fun _ => ⟨rfl, _, rfl, hstands, hleft⟩⟩
    | error e => exact ⟨nofun, fun _ => ⟨rfl, _, rfl, hstands, hleft⟩⟩

theorem startHttp2_spec (reader : HTTPReader) (h : reader.bufferedReader.Steady) {left : Bytes}
    (requestLine : HttpRequestLine Uri) (agreed : Bool) :
    FirstSpec (prefaceOf p requestLine reader.bufferedReader.unread agreed) left
      (startHttp2 p reader requestLine agreed) := by
  unfold prefaceOf startHttp2 analyzeHttp2Preface
  dsimp only
  by_cases hversion : requestLine.version = .v2
  · by_cases hmethod : requestLine.method = .pri
    · by_cases huri : p.uriType requestLine.uri = .asterisk
      · rw [if_neg (not_not.2 hversion), if_neg (not_not.2 hmethod), if_neg (not_not.2 huri)]
        by_cases hsize : http2ClientPrefaceAfterHttp1StatusLine.length ≤
            reader.bufferedReader.unread.length
        · obtain ⟨reader', hread, hforward, -⟩ := getAmount_forward h hsize
          rw [hread]
          dsimp only
          by_cases hbytes : reader.bufferedReader.unread.take
              http2ClientPrefaceAfterHttp1StatusLine.length = http2ClientPrefaceAfterHttp1StatusLine
          · rw [if_pos ⟨hversion, hmethod, huri, hsize, hbytes⟩, decide_eq_true hbytes]
            exact firstSpec_final rfl fun _ => ⟨hforward.steady, hforward.unread h.toReady⟩
          · rw [if_neg fun hall => hbytes hall.2.2.2.2, decide_eq_false hbytes]
            exact firstSpec_final rfl nofun
        · rw [if_neg fun hall => hsize hall.2.2.2.1]
          have heof := (getAmount_short h (not_le.1 hsize)).1
          have hread : bufferedReaderGetAmount reader.bufferedReader
              http2ClientPrefaceAfterHttp1StatusLine.length = (_, .eof) := Prod.ext rfl heof
          rw [hread]
          exact firstSpec_final rfl nofun
      · rw [if_neg fun hall => huri hall.2.2.1, if_neg (not_not.2 hversion),
          if_neg (not_not.2 hmethod), if_pos huri]
        exact firstSpec_final rfl nofun
    · rw [if_neg fun hall => hmethod hall.2.1, if_neg (not_not.2 hversion), if_pos hmethod]
      exact firstSpec_final rfl nofun
  · rw [if_neg fun hall => hversion hall.1, if_pos hversion]
    exact firstSpec_final rfl nofun

/-- **The first request of a connection** is the one of its stream, up to the look at what is
left in the buffer. -/
theorem parseFirstHttpRequest_spec (p : HeadParser Uri) (reader : HTTPReader)
    (h : reader.bufferedReader.Steady)
    (hahead : reader.bufferedReader.ahead.length < bufferedReaderChunkSize) :
    FirstSpec (firstOf p reader.protocol reader.bufferedReader.unread)
      (parseHeaders p (bufferedReaderGetUntilDelimiter reader.bufferedReader
        httpLineSeperators).1).1.ahead
      (parseFirstHttpRequest p reader) := by
  unfold firstOf parseFirstHttpRequest parseHttp1RequestLine
  cases hline : lineOf reader.bufferedReader.unread with
  | none =>
    obtain ⟨reader', hread, -⟩ := getLine_none h hline
    rw [hread]
    exact firstSpec_final rfl nofun
  | some lr =>
    obtain ⟨line, rest⟩ := lr
    obtain ⟨reader', hread, ⟨hsteady, hunread⟩, hahead'⟩ := getLine_some h hline
    have hahead' := hahead' hahead
    subst hunread
    rw [hread]
    dsimp only
    cases (parseRequestLine p line).toExcept with
    | error e => exact firstSpec_final rfl nofun
    | ok requestLine =>
      dsimp only
      cases reader.protocol with
      | http1Dot1 =>
        dsimp only
        by_cases hversion : requestLine.version = .v2
        · rw [if_pos hversion, if_pos hversion]
          exact firstSpec_final rfl nofun
        · rw [if_neg hversion, if_neg hversion]
          exact parseFirstHttp1Request_spec ⟨_, reader', _, _⟩ hsteady hahead' requestLine
      | http2 => exact startHttp2_spec ⟨_, reader', _, _⟩ hsteady requestLine true
      | none =>
        dsimp only
        by_cases hversion : requestLine.version = .v2
        · rw [if_pos hversion, if_pos hversion]
          exact startHttp2_spec ⟨_, reader', _, _⟩ hsteady requestLine false
        · rw [if_neg hversion, if_neg hversion]
          exact parseFirstHttp1Request_spec ⟨_, reader', _, _⟩ hsteady hahead' requestLine

end SimpleServer.Http
