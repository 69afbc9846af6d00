import SimpleServer.Http.Stream

/-!
# The first request and the cuts of its stream

Two clients send the same bytes, and the network cuts them in different ways. The request is
the same (`parseFirstHttpRequest_spec`), but at its end `parse_first_http_request` refuses the
request when the buffer still holds bytes, and these are the ones that happened to arrive
together with the end of the head.

* `observed_uncut`: when no byte can be left there, the outcome is the one of the stream.
* `observed_cutAt`: how a cut behind the end of the head decides otherwise.
* `independentOfCut_iff`: **the cut shows exactly when the request is followed by further
  bytes, and its body is short enough for one of them to be read with the head.**
-/

namespace SimpleServer.Http

open Utils Hpack Http2

variable {Uri : Type} {p : HeadParser Uri} {protocol : ProtocolSelected} {stream : Bytes}

/-! ## Cuts -/

/-- One way to cut a stream into reads. -/
structure Cut (stream : Bytes) where
  reads : List Bytes
  nonempty : ∀ read ∈ reads, read ≠ []
  flatten : reads.flatten = stream

/-- What the reads of a connection meet. -/
def Cut.incoming (cut : Cut stream) : List Incoming := cut.reads.flatMap leftOver

/-- `get_http_request` on a fresh reader. -/
def firstRequest (p : HeadParser Uri) (protocol : ProtocolSelected) (cut : Cut stream) :
    HTTPReader × HttpOutcome Uri :=
  getHttpRequest p (initializeHttpReaderFromConnection protocol cut.incoming)

/-- Any two cuts of the stream give the same outcome. -/
def IndependentOfCut (p : HeadParser Uri) (protocol : ProtocolSelected) (stream : Bytes) : Prop :=
  ∀ cut cut' : Cut stream,
    observed (firstRequest p protocol cut) = observed (firstRequest p protocol cut')

/-- The longest body that can be in the buffer together with a byte that follows it, when the
last byte of the head was the first one of a read. -/
def longestBodyAhead : ℕ := bufferedReaderChunkSize - 2

/-- The stream has bytes behind its first request, and one of them may be read together with
the end of the head. -/
def BytesBehind (p : HeadParser Uri) (protocol : ProtocolSelected) (stream : Bytes) : Prop :=
  (firstOf p protocol stream).checked = true ∧
    (firstOf p protocol stream).bodyLength ≤ longestBodyAhead ∧
    ∃ rest, (firstOf p protocol stream).rest = some rest ∧ rest ≠ []

theorem arriving_reads (reads : List Bytes) :
    arriving (reads.flatMap leftOver) = reads.flatten := by
  induction reads with
  | nil => rfl
  | cons read reads ih =>
    rw [List.flatMap_cons, arriving_leftOver, ih, List.flatten_cons]

theorem onlyBytes_reads (reads : List Bytes) : OnlyBytes (reads.flatMap leftOver) := by
  induction reads with
  | nil => nofun
  | cons read reads ih => exact onlyBytes_leftOver read ih

/-- The reader that the first request is read with. -/
def freshReader (cut : Cut stream) : BufferedReader := getBufferedReader cut.incoming

theorem freshReader_steady (cut : Cut stream) : (freshReader cut).Steady :=
  ⟨⟨rfl, Nat.le_refl 0⟩, onlyBytes_reads cut.reads⟩

theorem freshReader_unread (cut : Cut stream) : (freshReader cut).unread = stream :=
  (arriving_reads cut.reads).trans cut.flatten

theorem firstRequest_spec (p : HeadParser Uri) (protocol : ProtocolSelected) (cut : Cut stream) :
    FirstSpec (firstOf p protocol stream)
      (parseHeaders p (bufferedReaderGetUntilDelimiter (freshReader cut)
        httpLineSeperators).1).1.ahead
      (firstRequest p protocol cut) := by
  have hspec := parseFirstHttpRequest_spec p ⟨protocol, freshReader cut, .reading, .v1⟩
    (freshReader_steady cut) (show 0 < bufferedReaderChunkSize by decide)
  rw [freshReader_unread cut] at hspec
  exact hspec

/-! ## The look at what is left -/

theorem hasMoreData_iff {reader : BufferedReader} :
    bufferedReaderHasMoreData reader = true ↔ reader.state = .closed ∨ reader.ahead = [] := by
  unfold bufferedReaderHasMoreData BufferedReader.ahead
  rw [List.drop_eq_nil_iff]
  by_cases hclosed : reader.state = .closed
  · rw [if_pos hclosed]
    exact ⟨fun _ => .inl hclosed, fun _ => rfl⟩
  · rw [if_neg hclosed]
    by_cases hcursor : reader.data.cursor < reader.data.buffer.length
    · rw [if_pos hcursor]
      refine ⟨nofun, ?_⟩
      rintro (h | h)
      · exact absurd h hclosed
      · omega
    · rw [if_neg hcursor]
      exact ⟨fun _ => .inr (not_lt.1 hcursor), fun _ => rfl⟩

/-- What is observed when the buffer is looked at. -/
theorem observed_checkNothingLeft {reader : HTTPReader} {outcome : HttpOutcome Uri}
    (hhttp1 : outcome.isHttp2 = false) :
    observed (checkNothingLeft reader outcome) =
      (if bufferedReaderHasMoreData reader.bufferedReader then outcome
        else .error (.enumValue .lengthRequired), none) := by
  unfold checkNothingLeft
  by_cases hmore : bufferedReaderHasMoreData reader.bufferedReader
  · rw [if_pos hmore, if_pos hmore]
    unfold observed
    dsimp only
    rw [hhttp1]
    rfl
  · rw [if_neg hmore, if_neg hmore]
    rfl

/-- Without bytes behind the request the outcome is the one of the stream, for every cut. -/
theorem observed_uncut (h : ¬ BytesBehind p protocol stream) (cut : Cut stream) :
    observed (firstRequest p protocol cut) =
      ((firstOf p protocol stream).outcome,
        if (firstOf p protocol stream).outcome.isHttp2 then (firstOf p protocol stream).rest
          else none) := by
  have hspec := firstRequest_spec p protocol cut
  cases hchecked : (firstOf p protocol stream).checked with
  | false => exact hspec.final hchecked
  | true =>
    obtain ⟨hhttp1, reader, hreader, hstands, hleft⟩ := hspec.checked hchecked
    have hmore : bufferedReaderHasMoreData reader.bufferedReader = true := by
      rw [hasMoreData_iff]
      cases hrest : (firstOf p protocol stream).rest with
      | none =>
        rw [hrest] at hstands
        exact .inl hstands
      | some rest =>
        right
        rw [hrest] at hstands hleft
        obtain ⟨hshort, hahead⟩ := hleft nofun
        by_cases hnil : rest = []
        · have hunread := hstands.2
          rw [hnil] at hunread
          exact (List.append_eq_nil_iff.1 hunread).1
        · have hlong : longestBodyAhead < (firstOf p protocol stream).bodyLength := by
            by_contra hle
            exact h ⟨hchecked, not_lt.1 hle, rest, hrest, hnil⟩
          rw [hahead, List.drop_eq_nil_iff]
          unfold longestBodyAhead at hlong
          omega
    rw [hreader, observed_checkNothingLeft hhttp1, if_pos hmore, hhttp1]
    rfl

/-! ## The cut behind the end of the head -/

theorem firstOf_checked (h : (firstOf p protocol stream).checked = true) :
    ∃ line rest requestLine, lineOf stream = some (line, rest) ∧
      firstOf p protocol stream = ⟨requestOf p requestLine rest, true⟩ := by
  have hhttp1 : ∀ {requestLine : HttpRequestLine Uri} {rest : Bytes},
      (http1Of p requestLine rest).checked = true →
      http1Of p requestLine rest = ⟨requestOf p requestLine rest, true⟩ := by
    intro requestLine rest hchecked
    unfold http1Of at hchecked ⊢
    cases hline : requestLineError p requestLine with
    | some e =>
      rw [hline] at hchecked
      cases hchecked
    | none =>
      rw [hline] at hchecked
      dsimp only at hchecked ⊢
      rw [hchecked]
  have hpreface : ∀ {requestLine : HttpRequestLine Uri} {rest : Bytes} {agreed : Bool},
      (prefaceOf p requestLine rest agreed).checked ≠ true := by
    intro requestLine rest agreed
    unfold prefaceOf
    dsimp only
    split_ifs
    · nofun
    · nofun
  unfold firstOf at h ⊢
  cases hline : lineOf stream with
  | none =>
    rw [hline] at h
    cases h
  | some lr =>
    obtain ⟨line, rest⟩ := lr
    rw [hline] at h
    dsimp only at h ⊢
    cases hparse : (parseRequestLine p line).toExcept with
    | error e =>
      rw [hparse] at h
      cases h
    | ok requestLine =>
      rw [hparse] at h
      refine ⟨line, rest, requestLine, rfl, ?_⟩
      cases protocol with
      | http2 => exact absurd h hpreface
      | http1Dot1 =>
        dsimp only at h ⊢
        split_ifs at h ⊢
        · cases h
        · exact hhttp1 h
      | none =>
        dsimp only at h ⊢
        split_ifs at h ⊢
        · exact absurd h hpreface
        · exact hhttp1 h

/-- Behind the head comes the body, and behind it the rest. -/
theorem requestOf_rest {requestLine : HttpRequestLine Uri} {rest : Bytes}
    (h : (requestOf p requestLine stream).rest = some rest) :
    ∃ after, (headOf p stream).rest = some after ∧
      after.length = (requestOf p requestLine stream).bodyLength + rest.length := by
  unfold requestOf at h ⊢
  cases hhead : headOf p stream with
  | unfinished =>
    rw [hhead] at h
    cases h
  | badField after =>
    rw [hhead] at h
    obtain rfl : after = rest := Option.some.inj h
    exact ⟨after, rfl, (Nat.zero_add _).symm⟩
  | fields headerFields after =>
    rw [hhead] at h
    refine ⟨after, rfl, ?_⟩
    dsimp only at h ⊢
    cases hanalyze : httpAnalyzeHeaders p requestLine.version headerFields with
    | error e =>
      rw [hanalyze] at h
      obtain rfl : after = rest := Option.some.inj h
      exact (Nat.zero_add _).symm
    | ok analyze =>
      rw [hanalyze] at h
      dsimp only at h ⊢
      cases hbody : bodyOf after analyze.length with
      | mk result behind =>
        rw [hbody] at h
        cases result with
        | error e =>
          obtain rfl : behind = some rest := h
          rw [bodyOf_error hbody]
          exact (Nat.zero_add _).symm
        | ok body =>
          obtain rfl : behind = some rest := h
          exact (bodyOf_ok hbody).symm

/-- The bytes one by one, but for one that comes together with `c`; then the rest. -/
def cutAt {xs c rest : Bytes} {b : UInt8} (h : stream = xs ++ b :: (c ++ rest)) : Cut stream where
  reads := xs.map ([·]) ++ (b :: c) :: [rest].filter (· ≠ [])
  nonempty := by
    intro read hread
    rcases List.mem_append.1 hread with hread | hread
    · obtain ⟨x, -, rfl⟩ := List.mem_map.1 hread
      nofun
    · rcases List.mem_cons.1 hread with rfl | hread
      · nofun
      · exact of_decide_eq_true (List.mem_filter.1 hread).2
  flatten := by
    have hsingles : (xs.map ([·])).flatten = xs := by
      rw [← List.flatMap_def, List.flatMap_singleton']
    have hrest : ([rest].filter (· ≠ [])).flatten = rest := by
      cases rest with
      | nil => rfl
      | cons r rest => exact List.append_nil _
    rw [h, List.flatten_append, List.flatten_cons, hsingles, hrest]
    rfl

theorem cutAt_incoming {xs c rest : Bytes} {b : UInt8} (h : stream = xs ++ b :: (c ++ rest)) :
    ∃ more, (cutAt h).incoming = singles xs ++ .bytes b c :: more := by
  refine ⟨([rest].filter (· ≠ [])).flatMap leftOver, ?_⟩
  have hsingles : (xs.map ([·])).flatMap leftOver = singles xs := by
    rw [List.flatMap_map]
    exact List.map_eq_flatMap.symm
  unfold Cut.incoming cutAt
  rw [List.flatMap_append, hsingles, List.flatMap_cons]
  rfl

/-- Where the lines, the head and the body of a first request end. -/
theorem firstOf_head {behind : Bytes} (hchecked : (firstOf p protocol stream).checked = true)
    (hbehind : (firstOf p protocol stream).rest = some behind) :
    ∃ line after body, lineOf stream = some (line, after) ∧
      (headOf p after).rest = some body ∧
      body.length = (firstOf p protocol stream).bodyLength + behind.length ∧
      Http1Outcome (firstOf p protocol stream).outcome := by
  obtain ⟨line, after, requestLine, hline, hfirst⟩ := firstOf_checked hchecked
  rw [hfirst] at hbehind ⊢
  obtain ⟨body, hhead, hlen⟩ := requestOf_rest hbehind
  exact ⟨line, after, body, hline, hhead, hlen, requestOf_outcome p requestLine after⟩

/-- When the head ends with the byte that comes together with `c`, then `c` decides. -/
theorem observed_cutAt {xs c rest behind : Bytes} {b : UInt8}
    (h : stream = xs ++ b :: (c ++ rest)) (hc : c.length < bufferedReaderChunkSize)
    (hchecked : (firstOf p protocol stream).checked = true)
    (hbehind : (firstOf p protocol stream).rest = some behind)
    (hxs : stream.length =
      xs.length + 1 + ((firstOf p protocol stream).bodyLength + behind.length)) :
    observed (firstRequest p protocol (cutAt h)) =
      (if c.length ≤ (firstOf p protocol stream).bodyLength then
        (firstOf p protocol stream).outcome
        else .error (.enumValue .lengthRequired), none) := by
  obtain ⟨line, after, body, hline, hhead, hbody, -⟩ := firstOf_head hchecked hbehind
  obtain ⟨n, hscan, -, -, hcount⟩ := lineOf_length hline
  have hshort := headLoop_rest hhead
  obtain ⟨more, hin⟩ := cutAt_incoming h
  have hsteady := freshReader_steady (cutAt h)
  rw [← freshReader_unread (cutAt h)] at hscan hline
  obtain ⟨hahead, hin⟩ := getUntilDelimiter_singles hsteady rfl hin hscan (by omega)
  obtain ⟨reader', hread, ⟨hsteady', hunread⟩, -⟩ := getLine_some hsteady hline
  have hfirst : (bufferedReaderGetUntilDelimiter (freshReader (cutAt h))
      httpLineSeperators).1 = reader' := by
    rw [hread]
  rw [hfirst] at hahead hin
  subst hunread
  have hleft : (parseHeaders p reader').1.ahead = c := by
    refine parseHeaders_chunk hsteady' hahead hin hc hhead ?_
    rw [List.length_drop]
    omega
  obtain ⟨hhttp1, reader, hreader, hstands, hmore⟩ :=
    (firstRequest_spec p protocol (cutAt h)).checked hchecked
  rw [hbehind] at hstands hmore
  have hopen : reader.bufferedReader.state ≠ .closed := by
    rw [hstands.1.state]
    nofun
  have hdrop := (hmore nofun).2
  rw [hfirst, hleft] at hdrop
  have hempty : bufferedReaderHasMoreData reader.bufferedReader = true ↔
      c.length ≤ (firstOf p protocol stream).bodyLength := by
    rw [hasMoreData_iff, hdrop, List.drop_eq_nil_iff]
    exact ⟨fun hor => hor.resolve_left hopen, .inr⟩
  rw [hreader, observed_checkNothingLeft hhttp1]
  by_cases hle : c.length ≤ (firstOf p protocol stream).bodyLength
  · rw [if_pos hle, if_pos (hempty.2 hle)]
  · rw [if_neg hle, if_neg fun hall => hle (hempty.1 hall)]

/-- With bytes behind the request, the end of the head and these bytes may come together or
one after the other. -/
theorem not_independent (h : BytesBehind p protocol stream) :
    ¬ IndependentOfCut p protocol stream := by
  intro hindependent
  obtain ⟨hchecked, hbody, behind, hbehind, hne⟩ := h
  obtain ⟨line, after, body, hline, hhead, hlen, houtcome⟩ := firstOf_head hchecked hbehind
  obtain ⟨n, -, -, -, hcount⟩ := lineOf_length hline
  have hshort := headLoop_rest hhead
  have hpos : 0 < behind.length := List.length_pos_iff.2 hne
  -- the last byte of the head, and what comes before and after it
  obtain ⟨m, hm⟩ : ∃ m, stream.length =
      m + 1 + ((firstOf p protocol stream).bodyLength + behind.length) :=
    ⟨stream.length - body.length - 1, by omega⟩
  obtain ⟨b, tail, hdrop⟩ : ∃ b tail, stream.drop m = b :: tail :=
    List.exists_cons_of_length_pos (by rw [List.length_drop]; omega)
  have htail : tail.length = (firstOf p protocol stream).bodyLength + behind.length := by
    have := congrArg List.length hdrop
    rw [List.length_drop, List.length_cons] at this
    omega
  have hxs : (stream.take m).length = m := by
    rw [List.length_take]
    omega
  have halone : stream = stream.take m ++ b :: ([] ++ tail) := by
    rw [List.nil_append, ← hdrop, List.take_append_drop]
  have htogether : stream = stream.take m ++
      b :: (tail.take ((firstOf p protocol stream).bodyLength + 1) ++
        tail.drop ((firstOf p protocol stream).bodyLength + 1)) := by
    rw [List.take_append_drop, ← hdrop, List.take_append_drop]
  have hcount : (tail.take ((firstOf p protocol stream).bodyLength + 1)).length =
      (firstOf p protocol stream).bodyLength + 1 := by
    rw [List.length_take]
    omega
  have hsame := hindependent (cutAt halone) (cutAt htogether)
  have hroom : (tail.take ((firstOf p protocol stream).bodyLength + 1)).length <
      bufferedReaderChunkSize := by
    unfold longestBodyAhead bufferedReaderChunkSize at hbody
    unfold bufferedReaderChunkSize
    omega
  rw [observed_cutAt halone (by decide) hchecked hbehind (by omega),
    observed_cutAt htogether hroom hchecked hbehind (by omega),
    if_pos (show ([] : Bytes).length ≤ _ from Nat.zero_le _), if_neg (by omega)] at hsame
  -- the request itself is never refused for its length
  rw [(Prod.mk.inj hsame).1] at houtcome
  cases houtcome with
  | error e hlength => exact hlength rfl

/-- **The outcome of a first request is independent of the cut** exactly when no byte behind
the request can be read together with the end of its head. -/
theorem independentOfCut_iff (p : HeadParser Uri) (protocol : ProtocolSelected) (stream : Bytes) :
    IndependentOfCut p protocol stream ↔ ¬ BytesBehind p protocol stream := by
  constructor
  · intro hindependent hbehind
    exact not_independent hbehind hindependent
  · intro hbehind cut cut'
    rw [observed_uncut hbehind cut, observed_uncut hbehind cut']

/-- A request without a body, and one more byte. -/
def requestAndByte : Bytes := ascii "GET / HTTP/1.1\r\n\r\nx"

/-- The byte comes with the request, or alone. -/
def togetherCut : Cut requestAndByte := ⟨[requestAndByte], by decide, by decide⟩

def aloneCut : Cut requestAndByte :=
  ⟨[ascii "GET / HTTP/1.1\r\n\r\n", ascii "x"], by decide, by decide⟩

theorem requestAndByte_depends :
    (firstRequest .plain .none togetherCut).2 = .error (.enumValue .lengthRequired) ∧
      (firstRequest .plain .none aloneCut).2 =
        .ok ⟨⟨.get, ascii "/", .v1Dot1⟩, [], []⟩ ∧
      ¬ IndependentOfCut .plain .none requestAndByte := by
  have htogether : (firstRequest .plain .none togetherCut).2 =
      .error (.enumValue .lengthRequired) := by decide +kernel
  have halone : (firstRequest .plain .none aloneCut).2 =
      .ok ⟨⟨.get, ascii "/", .v1Dot1⟩, [], []⟩ := by decide +kernel
  refine ⟨htogether, halone, ?_⟩
  intro hindependent
  have hsame := congrArg Prod.fst (hindependent togetherCut aloneCut)
  unfold observed at hsame
  rw [htogether, halone] at hsame
  cases hsame

end SimpleServer.Http
