import Mathlib.Data.List.GetD
import SimpleServer.Utils.ReaderSpec

/-!
# Reading up to a delimiter and up to the end

What the search for a delimiter delivers is a function of the bytes to come (`scan`), while
what it leaves in the buffer depends on how they were cut: it reads ahead, up to 512 bytes at
a time, and consumes byte by byte.

* `getUntilDelimiter_found`, `getUntilDelimiter_none`: the search, on a stream without failures.
* `Forward`: a reader before and after some bytes were consumed; never more than 511 bytes
  are left in the buffer.
* `getAmount_forward`, `getAmount_short`, `getUntilEnd_ok`: the other two ways to read.
* `getUntilEnd_onlyBytes`: reading to the end does not hide a failure.
* `getUntilDelimiter_singles`, `getUntilDelimiter_chunk`: the search when the bytes come one by
  one, and when the last one comes together with others.
-/

namespace SimpleServer.Utils

variable {reader reader' : BufferedReader} {delimiter : Bytes} {start index fuel n amount : ℕ}

/-! ## Streams without failures -/

/-- Everything that comes is bytes. -/
def OnlyBytes (incoming : List Incoming) : Prop :=
  ∀ i ∈ incoming, ∃ first rest, i = .bytes first rest

/-- A reader in good order that meets no failure. -/
structure BufferedReader.Steady (reader : BufferedReader) : Prop extends reader.Ready where
  onlyBytes : OnlyBytes reader.incoming

/-- The bytes the reader has seen or will see. -/
def BufferedReader.whole (reader : BufferedReader) : Bytes :=
  reader.data.buffer ++ arriving reader.incoming

/-- The bytes that are in the buffer and not consumed. -/
def BufferedReader.ahead (reader : BufferedReader) : Bytes :=
  reader.data.buffer.drop reader.data.cursor

theorem unread_eq_whole (h : reader.Ready) :
    reader.unread = reader.whole.drop reader.data.cursor := by
  unfold BufferedReader.unread BufferedReader.whole
  rw [List.drop_append_of_le_length h.cursor]

theorem Appended.whole {bytes : Bytes} (h : Appended reader reader' bytes) :
    reader'.whole = reader.whole := by
  unfold BufferedReader.whole
  rw [h.buffer, h.arriving, List.append_assoc]

theorem onlyBytes_leftOver (bytes : Bytes) {more : List Incoming} (h : OnlyBytes more) :
    OnlyBytes (leftOver bytes ++ more) := by
  intro i hi
  rcases List.mem_append.1 hi with hi | hi
  · cases bytes with
    | nil => cases hi
    | cons b rest => exact ⟨b, rest, List.mem_singleton.1 hi⟩
  · exact h i hi

theorem arriving_eq_nil {incoming : List Incoming} (h : OnlyBytes incoming)
    (harr : arriving incoming = []) : incoming = [] := by
  cases incoming with
  | nil => rfl
  | cons i more =>
    obtain ⟨first, rest, rfl⟩ := h i List.mem_cons_self
    cases harr

/-- With bytes only, what is to come is what arrives. -/
theorem toCome_eq (h : OnlyBytes reader.incoming) :
    reader.toCome = (arriving reader.incoming).length := by
  unfold BufferedReader.toCome
  generalize reader.incoming = incoming at h
  induction incoming with
  | nil => rfl
  | cons i more ih =>
    obtain ⟨first, rest, rfl⟩ := h i List.mem_cons_self
    have hmore : OnlyBytes more := fun j hj => h j (List.mem_cons_of_mem _ hj)
    simp only [List.map_cons, List.sum_cons, Incoming.count, arriving, List.length_append,
      List.length_cons, ih hmore]

/-- `reader'` is `reader` after `n` bytes were consumed. -/
structure Forward (reader : BufferedReader) (n : ℕ) (reader' : BufferedReader) : Prop where
  steady : reader'.Steady
  whole : reader'.whole = reader.whole
  cursor : reader'.data.cursor = reader.data.cursor + n

theorem Forward.refl (h : reader.Steady) : Forward reader 0 reader := ⟨h, rfl, rfl⟩

theorem Forward.trans {reader'' : BufferedReader} {n' : ℕ} (h : Forward reader n reader')
    (h' : Forward reader' n' reader'') : Forward reader (n + n') reader'' :=
  ⟨h'.steady, h'.whole.trans h.whole, by rw [h'.cursor, h.cursor, Nat.add_assoc]⟩

theorem Forward.unread (h : Forward reader n reader') (hready : reader.Ready) :
    reader'.unread = reader.unread.drop n := by
  rw [unread_eq_whole h.steady.toReady, unread_eq_whole hready, h.whole, h.cursor, List.drop_drop]

theorem getMoreDataPartially_onlyBytes (h : reader.Steady) (amount : ℕ) :
    OnlyBytes (bufferedReaderGetMoreDataPartially reader amount).1.incoming := by
  have hall := h.onlyBytes
  unfold bufferedReaderGetMoreDataPartially
  rw [isSafeToRead_eq h.state h.cursor]
  dsimp only
  split
  · rename_i rest hin
    exact fun i hi => hall i (by rw [hin]; exact List.mem_cons_of_mem _ hi)
  · exact hall
  · rename_i rest hin
    exact fun i hi => hall i (by rw [hin]; exact List.mem_cons_of_mem _ hi)
  · rename_i first arrived rest hin
    refine onlyBytes_leftOver _ fun i hi => hall i ?_
    rw [hin]
    exact List.mem_cons_of_mem _ hi

/-- One request of bytes that arrive. -/
theorem getMoreDataPartially_steady (h : reader.Steady) (harr : arriving reader.incoming ≠ [])
    (amount : ℕ) (hpos : 0 < amount) :
    Forward reader 0 (bufferedReaderGetMoreDataPartially reader amount).1 ∧
      (bufferedReaderGetMoreDataPartially reader amount).1.data.buffer.length =
        reader.data.buffer.length + (bufferedReaderGetMoreDataPartially reader amount).2 ∧
      0 < (bufferedReaderGetMoreDataPartially reader amount).2 ∧
      (bufferedReaderGetMoreDataPartially reader amount).2 ≤ amount := by
  rcases getMoreDataPartially_ready h.toReady amount with ⟨hnone, -, -⟩ |
    ⟨bytes, happ, hlen, hle, hsome⟩
  · exact absurd hnone harr
  · have hsteady := getMoreDataPartially_onlyBytes h amount
    refine ⟨⟨⟨happ.ready, hsteady⟩, happ.whole, happ.cursor⟩, ?_, ?_, ?_⟩
    · rw [happ.buffer, List.length_append, hlen]
    · rw [← hlen]
      exact hsome hpos
    · rw [← hlen]
      exact hle

/-- A request at the end of the stream closes it. -/
theorem getMoreDataPartially_end (h : reader.Steady) (harr : arriving reader.incoming = [])
    (amount : ℕ) :
    (bufferedReaderGetMoreDataPartially reader amount).1.state = .closed ∧
      (bufferedReaderGetMoreDataPartially reader amount).1.data = reader.data ∧
      (bufferedReaderGetMoreDataPartially reader amount).2 = 0 := by
  have hnil := arriving_eq_nil h.onlyBytes harr
  unfold bufferedReaderGetMoreDataPartially
  rw [isSafeToRead_eq h.state h.cursor]
  dsimp only
  rw [hnil]
  exact ⟨rfl, rfl, rfl⟩

/-! ## The next byte -/

/-- A byte is there: it is the next one of the buffer, which may have been filled for it. -/
theorem atNextByte_cons (h : reader.Steady) {b : UInt8} {rest : Bytes}
    (hunread : reader.unread = b :: rest) :
    Forward reader 0 (atNextByte reader) ∧
      (atNextByte reader).data.cursor < (atNextByte reader).data.buffer.length ∧
      (atNextByte reader).data.buffer.getD (atNextByte reader).data.cursor 0 = b ∧
      (reader.ahead.length ≤ bufferedReaderChunkSize →
        (atNextByte reader).ahead.length ≤ bufferedReaderChunkSize) := by
  -- what the next byte is follows from where the reader stands
  have hbyte : ∀ r : BufferedReader, Forward reader 0 r → r.data.cursor < r.data.buffer.length →
      r.data.buffer.getD r.data.cursor 0 = b := by
    intro r hr hlt
    have hsame := hr.unread h.toReady
    rw [List.drop_zero, hunread] at hsame
    unfold BufferedReader.unread at hsame
    rw [List.drop_eq_getElem_cons hlt, List.cons_append] at hsame
    rw [List.getD_eq_getElem _ _ hlt]
    exact (List.cons.inj hsame).1
  unfold atNextByte
  by_cases hend : reader.data.cursor ≥ reader.data.buffer.length
  · have harr : arriving reader.incoming ≠ [] := by
      intro hnil
      unfold BufferedReader.unread at hunread
      rw [hnil, List.drop_of_length_le hend] at hunread
      cases hunread
    obtain ⟨hforward, hlen, hsome, hle⟩ := getMoreDataPartially_steady h harr
      bufferedReaderChunkSize (by decide)
    have hnext : bufferedReaderGetMoreDataAtLeastSome reader bufferedReaderChunkSize =
        (bufferedReaderGetMoreDataPartially reader bufferedReaderChunkSize).1 := by
      unfold bufferedReaderGetMoreDataAtLeastSome
      dsimp only
      rw [if_neg (by omega)]
    rw [if_pos hend, hnext]
    have hcursor := hforward.cursor
    have hlt : (bufferedReaderGetMoreDataPartially reader bufferedReaderChunkSize).1.data.cursor <
        (bufferedReaderGetMoreDataPartially reader
          bufferedReaderChunkSize).1.data.buffer.length := by
      have hready := h.cursor
      omega
    refine ⟨hforward, hlt, hbyte _ hforward hlt, fun _ => ?_⟩
    unfold BufferedReader.ahead
    rw [List.length_drop]
    omega
  · rw [if_neg hend]
    have hlt := not_le.1 hend
    exact ⟨Forward.refl h, hlt, hbyte _ (Forward.refl h) hlt, id⟩

theorem atNextByte_nil (h : reader.Steady) (hunread : reader.unread = []) :
    (atNextByte reader).state = .closed := by
  unfold BufferedReader.unread at hunread
  obtain ⟨hdrop, harr⟩ := List.append_eq_nil_iff.1 hunread
  have hend : reader.data.cursor ≥ reader.data.buffer.length := List.drop_eq_nil_iff.1 hdrop
  have hclosed := (getMoreDataPartially_end h harr bufferedReaderChunkSize).1
  unfold atNextByte bufferedReaderGetMoreDataAtLeastSome
  rw [if_pos hend]
  dsimp only
  rw [if_neg (by rw [hclosed]; exact fun h => nomatch h.1), hclosed]

/-! ## The search for a delimiter -/

/-- How many bytes the search takes, when it has found so much of the delimiter already. After
a byte that does not fit it starts again behind it. -/
def scan (delimiter : Bytes) : Bytes → ℕ → Option ℕ
  | [], _ => none
  | b :: rest, index =>
    if b = delimiter.getD index 0 then
      if index + 1 ≥ delimiter.length then some 1
      else (scan delimiter rest (index + 1)).map (· + 1)
    else (scan delimiter rest 0).map (· + 1)

theorem scan_le {stream : Bytes} (h : scan delimiter stream index = some n) :
    0 < n ∧ n ≤ stream.length := by
  induction stream generalizing index n with
  | nil => cases h
  | cons b rest ih =>
    have hstep : ∀ {i : ℕ}, (scan delimiter rest i).map (· + 1) = some n →
        0 < n ∧ n ≤ rest.length + 1 := by
      intro i hi
      obtain ⟨m, hm, rfl⟩ := Option.map_eq_some_iff.1 hi
      have := ih hm
      omega
    unfold scan at h
    rw [List.length_cons]
    split_ifs at h
    · cases h
      omega
    · exact hstep h
    · exact hstep h

/-- The reader one byte further. -/
def BufferedReader.consume (reader : BufferedReader) : BufferedReader :=
  { reader with data := { reader.data with cursor := reader.data.cursor + 1 } }

theorem consume_forward (h : reader.Steady)
    (hlt : reader.data.cursor < reader.data.buffer.length) :
    Forward reader 1 reader.consume :=
  ⟨⟨⟨h.state, hlt⟩, h.onlyBytes⟩, rfl, rfl⟩

/-- One round of the search on a byte that is there. -/
theorem getUntilDelimiterLoop_cons (h : reader.Steady) {b : UInt8} {rest : Bytes}
    (hunread : reader.unread = b :: rest) :
    getUntilDelimiterLoop delimiter start (fuel + 1) reader index =
      let advanced := (atNextByte reader).consume
      if b = delimiter.getD index 0 then
        if index + 1 ≥ delimiter.length then
          (advanced, .ok ((advanced.data.buffer.drop start).take
            (advanced.data.cursor - start - delimiter.length)))
        else getUntilDelimiterLoop delimiter start fuel advanced (index + 1)
      else getUntilDelimiterLoop delimiter start fuel advanced 0 := by
  obtain ⟨hforward, -, hbyte, -⟩ := atNextByte_cons h hunread
  have hopen := hforward.steady.state
  conv_lhs => unfold getUntilDelimiterLoop
  dsimp only
  rw [if_neg (not_not.2 hopen), hbyte]
  rfl

/-- A round moves one byte on and leaves at most 511 bytes in the buffer. -/
theorem nextByte_forward (h : reader.Steady) {b : UInt8} {rest : Bytes}
    (hunread : reader.unread = b :: rest) :
    Forward reader 1 (atNextByte reader).consume ∧
      (atNextByte reader).consume.unread = rest ∧
      (reader.ahead.length < bufferedReaderChunkSize →
        (atNextByte reader).consume.ahead.length < bufferedReaderChunkSize) := by
  obtain ⟨hforward, hlt, -, hahead⟩ := atNextByte_cons h hunread
  have hstep : Forward reader 1 (atNextByte reader).consume := by
    have := hforward.trans (consume_forward hforward.steady hlt)
    rwa [Nat.zero_add] at this
  refine ⟨hstep, ?_, ?_⟩
  · rw [hstep.unread h.toReady, hunread, List.drop_succ_cons, List.drop_zero]
  · intro hle
    have hmax := hahead hle.le
    unfold BufferedReader.ahead at hmax ⊢
    rw [List.length_drop] at hmax ⊢
    have hsame : (atNextByte reader).consume.data.buffer = (atNextByte reader).data.buffer := rfl
    have hcursor : (atNextByte reader).consume.data.cursor =
      (atNextByte reader).data.cursor + 1 := rfl
    rw [hsame, hcursor]
    omega

theorem getUntilDelimiterLoop_found (start fuel : ℕ) (h : reader.Steady)
    (hscan : scan delimiter reader.unread index = some n) (hfuel : n ≤ fuel) :
    ∃ reader', getUntilDelimiterLoop delimiter start fuel reader index =
        (reader', .ok ((reader'.data.buffer.drop start).take
          (reader'.data.cursor - start - delimiter.length))) ∧
      Forward reader n reader' ∧
      (reader.ahead.length < bufferedReaderChunkSize →
        reader'.ahead.length < bufferedReaderChunkSize) := by
  induction fuel generalizing reader index n with
  | zero =>
    have := (scan_le hscan).1
    omega
  | succ fuel ih =>
    cases hunread : reader.unread with
    | nil =>
      rw [hunread] at hscan
      cases hscan
    | cons b rest =>
      obtain ⟨hstep, hrest, hahead⟩ := nextByte_forward h hunread
      -- the rounds after this one
      have hgo : ∀ {i : ℕ}, (scan delimiter rest i).map (· + 1) = some n →
          ∃ reader', getUntilDelimiterLoop delimiter start fuel (atNextByte reader).consume i =
              (reader', .ok ((reader'.data.buffer.drop start).take
                (reader'.data.cursor - start - delimiter.length))) ∧
            Forward reader n reader' ∧
            (reader.ahead.length < bufferedReaderChunkSize →
              reader'.ahead.length < bufferedReaderChunkSize) := by
        intro i hi
        obtain ⟨m, hm, rfl⟩ := Option.map_eq_some_iff.1 hi
        rw [← hrest] at hm
        obtain ⟨reader', hloop, hforward, hahead'⟩ := ih hstep.steady hm (by omega)
        refine ⟨reader', hloop, ?_, fun hle => hahead' (hahead hle)⟩
        have := hstep.trans hforward
        rwa [Nat.add_comm] at this
      rw [getUntilDelimiterLoop_cons h hunread]
      rw [hunread] at hscan
      unfold scan at hscan
      dsimp only
      split_ifs at hscan ⊢
      · cases hscan
        exact ⟨_, rfl, hstep, hahead⟩
      · exact hgo hscan
      · exact hgo hscan

theorem getUntilDelimiterLoop_none (h : reader.Steady)
    (hscan : scan delimiter reader.unread index = none) (hfuel : reader.unread.length < fuel) :
    (getUntilDelimiterLoop delimiter start fuel reader index).2 = .eof ∧
      (getUntilDelimiterLoop delimiter start fuel reader index).1.state = .closed := by
  induction fuel generalizing reader index with
  | zero => exact absurd hfuel (Nat.not_lt_zero _)
  | succ fuel ih =>
    cases hunread : reader.unread with
    | nil =>
      have hclosed := atNextByte_nil h hunread
      have hnot : (atNextByte reader).state ≠ .open := by
        rw [hclosed]
        nofun
      unfold getUntilDelimiterLoop
      dsimp only
      rw [if_pos hnot]
      exact ⟨if_pos hclosed, hclosed⟩
    | cons b rest =>
      obtain ⟨hstep, hrest, -⟩ := nextByte_forward h hunread
      rw [hunread, List.length_cons] at hfuel
      have hlen : (atNextByte reader).consume.unread.length < fuel := by
        rw [hrest]
        omega
      rw [getUntilDelimiterLoop_cons h hunread]
      rw [hunread] at hscan
      unfold scan at hscan
      dsimp only
      split_ifs at hscan ⊢
      · rw [Option.map_eq_none_iff, ← hrest] at hscan
        exact ih hstep.steady hscan hlen
      · rw [Option.map_eq_none_iff, ← hrest] at hscan
        exact ih hstep.steady hscan hlen

/-- The fuel of the search is one more than the bytes to come. -/
theorem searchFuel (h : reader.Steady) :
    reader.data.buffer.length - reader.data.cursor + reader.toCome + 1 =
      reader.unread.length + 1 := by
  unfold BufferedReader.unread
  rw [toCome_eq h.onlyBytes, List.length_append, List.length_drop]

theorem getUntilDelimiter_steady (h : reader.Steady) (delimiter : Bytes) :
    bufferedReaderGetUntilDelimiter reader delimiter =
      getUntilDelimiterLoop delimiter reader.data.cursor (reader.unread.length + 1) reader 0 := by
  unfold bufferedReaderGetUntilDelimiter
  rw [isSafeToRead_eq h.state h.cursor]
  dsimp only
  rw [searchFuel h]

/-- **A delimiter that comes is found**, and what is before it is delivered. -/
theorem getUntilDelimiter_found (h : reader.Steady)
    (hscan : scan delimiter reader.unread 0 = some n) :
    ∃ reader', bufferedReaderGetUntilDelimiter reader delimiter =
        (reader', .ok (reader.unread.take (n - delimiter.length))) ∧
      Forward reader n reader' ∧
      (reader.ahead.length < bufferedReaderChunkSize →
        reader'.ahead.length < bufferedReaderChunkSize) := by
  have hle := (scan_le hscan).2
  obtain ⟨reader', hloop, hforward, hahead⟩ := getUntilDelimiterLoop_found
    reader.data.cursor (reader.unread.length + 1) h hscan (by omega)
  refine ⟨reader', ?_, hforward, hahead⟩
  rw [getUntilDelimiter_steady h, hloop]
  -- the buffer holds the bytes up to the cursor
  have hcursor := hforward.steady.cursor
  rw [hforward.cursor] at hcursor ⊢
  have hcount : reader.data.cursor + n - reader.data.cursor - delimiter.length =
      n - delimiter.length := by omega
  have hbuffer : (reader'.data.buffer.drop reader.data.cursor).take (n - delimiter.length) =
      reader.unread.take (n - delimiter.length) := by
    rw [unread_eq_whole h.toReady, ← hforward.whole]
    unfold BufferedReader.whole
    rw [List.drop_append_of_le_length (by omega), List.take_append_of_le_length]
    rw [List.length_drop]
    omega
  rw [hcount, hbuffer]

/-- Without a delimiter the search ends with the stream. -/
theorem getUntilDelimiter_none (h : reader.Steady)
    (hscan : scan delimiter reader.unread 0 = none) :
    (bufferedReaderGetUntilDelimiter reader delimiter).2 = .eof ∧
      (bufferedReaderGetUntilDelimiter reader delimiter).1.state = .closed := by
  rw [getUntilDelimiter_steady h]
  exact getUntilDelimiterLoop_none h hscan (Nat.lt_succ_self _)

/-! ## Reading an amount -/

/-- A request for an exact amount that does not arrive takes what there is and closes the
stream. -/
theorem getMoreDataExactLoop_short (h : reader.Steady) (amount : ℕ)
    (hshort : (arriving reader.incoming).length < amount)
    (hfuel : (arriving reader.incoming).length < fuel) :
    (getMoreDataExactLoop fuel reader amount).state = .closed ∧
      (getMoreDataExactLoop fuel reader amount).data =
        ⟨reader.data.cursor, reader.whole⟩ := by
  induction fuel generalizing reader amount with
  | zero => exact absurd hfuel (Nat.not_lt_zero _)
  | succ fuel ih =>
    unfold getMoreDataExactLoop
    rw [if_neg (not_not.2 h.state)]
    dsimp only
    by_cases harr : arriving reader.incoming = []
    · obtain ⟨hclosed, hdata, hzero⟩ := getMoreDataPartially_end h harr amount
      have hstopped : (bufferedReaderGetMoreDataPartially reader amount).1.state ≠ .open := by
        rw [hclosed]
        rintro ⟨⟩
      rw [hzero, if_neg (Nat.not_lt_zero _), if_neg (by omega),
        getMoreDataExactLoop_stopped _ _ hstopped]
      unfold BufferedReader.whole
      rw [harr, List.append_nil]
      exact ⟨hclosed, hdata⟩
    · obtain ⟨hforward, hlen, hsome, hle⟩ :=
        getMoreDataPartially_steady h harr amount (by omega)
      have hwhole := congrArg List.length hforward.whole
      unfold BufferedReader.whole at hwhole
      rw [List.length_append, List.length_append] at hwhole
      rw [if_neg (by omega), if_neg (by omega)]
      have hnext := ih hforward.steady
        (amount - (bufferedReaderGetMoreDataPartially reader amount).2) (by omega) (by omega)
      rw [hforward.whole, hforward.cursor] at hnext
      exact hnext

theorem getMoreDataExactLoop_onlyBytes (fuel : ℕ) (h : reader.Steady) (amount : ℕ) :
    OnlyBytes (getMoreDataExactLoop fuel reader amount).incoming := by
  induction fuel generalizing reader amount with
  | zero => exact h.onlyBytes
  | succ fuel ih =>
    have honly := getMoreDataPartially_onlyBytes h amount
    unfold getMoreDataExactLoop
    rw [if_neg (not_not.2 h.state)]
    dsimp only
    split_ifs
    · exact honly
    · exact honly
    · by_cases harr : arriving reader.incoming = []
      · have hclosed := (getMoreDataPartially_end h harr amount).1
        rw [getMoreDataExactLoop_stopped _ _ (by rw [hclosed]; rintro ⟨⟩)]
        exact honly
      · by_cases hpos : 0 < amount
        · exact ih (getMoreDataPartially_steady h harr amount hpos).1.steady _
        · rename_i hgt hne
          omega

theorem unread_length (reader : BufferedReader) :
    reader.unread.length = reader.ahead.length + (arriving reader.incoming).length := by
  unfold BufferedReader.unread BufferedReader.ahead
  rw [List.length_append]

/-- What is in the buffer when an amount that comes was asked for: only what is missing was
read. -/
theorem getDataUntil_steady (h : reader.Steady) (hamount : amount ≤ reader.unread.length) :
    Forward reader 0 (bufferedReaderGetDataUntil reader amount) ∧
      amount ≤ (bufferedReaderGetDataUntil reader amount).ahead.length ∧
      (bufferedReaderGetDataUntil reader amount).ahead.drop amount = reader.ahead.drop amount := by
  have hlen := unread_length reader
  have hahead : reader.ahead.length = reader.data.buffer.length - reader.data.cursor := by
    unfold BufferedReader.ahead
    rw [List.length_drop]
  unfold bufferedReaderGetDataUntil
  rw [getAvailableDataLength_ready h.toReady]
  dsimp only
  by_cases henough : reader.data.buffer.length - reader.data.cursor ≥ amount
  · rw [if_pos henough]
    exact ⟨Forward.refl h, by omega, rfl⟩
  · rw [if_neg henough]
    have hfuel : (arriving reader.incoming).length < reader.toCome + 1 :=
      Nat.lt_succ_of_le (toCome_eq h.onlyBytes).ge
    have honly := getMoreDataExactLoop_onlyBytes (reader.toCome + 1) h
      (amount - (reader.data.buffer.length - reader.data.cursor))
    unfold bufferedReaderGetMoreDataExact
    rcases getMoreDataExactLoop_ready h.toReady
      (amount - (reader.data.buffer.length - reader.data.cursor)) (by omega) hfuel with
      ⟨hthere, happ⟩ | ⟨hshort, -⟩
    · have hnew : (getMoreDataExactLoop (reader.toCome + 1) reader
          (amount - (reader.data.buffer.length - reader.data.cursor))).ahead.length = amount := by
        unfold BufferedReader.ahead
        have hcursor := h.cursor
        rw [happ.buffer, happ.cursor, List.length_drop, List.length_append, List.length_take]
        omega
      refine ⟨⟨⟨happ.ready, honly⟩, happ.whole, happ.cursor⟩, hnew.ge, ?_⟩
      rw [List.drop_of_length_le hnew.le, List.drop_of_length_le (by omega)]
    · omega

/-- **Bytes that are there are delivered.** What is left in the buffer is what it held behind
the amount before. -/
theorem getAmount_forward (h : reader.Steady) (hamount : amount ≤ reader.unread.length) :
    ∃ reader', bufferedReaderGetAmount reader amount = (reader', .ok (reader.unread.take amount)) ∧
      Forward reader amount reader' ∧ reader'.ahead = reader.ahead.drop amount := by
  obtain ⟨hforward, henough, hdrop⟩ := getDataUntil_steady h hamount
  have hready := hforward.steady.toReady
  have hlen : (bufferedReaderGetDataUntil reader amount).ahead.length =
      (bufferedReaderGetDataUntil reader amount).data.buffer.length -
        (bufferedReaderGetDataUntil reader amount).data.cursor := by
    unfold BufferedReader.ahead
    rw [List.length_drop]
  have htake : reader.unread.take amount =
      (bufferedReaderGetDataUntil reader amount).ahead.take amount := by
    have hsame := hforward.unread h.toReady
    rw [List.drop_zero] at hsame
    rw [← hsame]
    exact List.take_append_of_le_length henough
  rw [getAmount_ready h.toReady]
  dsimp only
  rw [if_neg (not_not.2 hready.state), getAvailableDataLength_ready hready]
  dsimp only
  rw [if_neg (by omega), htake]
  refine ⟨_, rfl, ⟨⟨⟨hready.state, ?_⟩, hforward.steady.onlyBytes⟩, hforward.whole, ?_⟩, ?_⟩
  · have hcursor := hready.cursor
    dsimp only
    omega
  · dsimp only
    rw [hforward.cursor, Nat.add_zero]
  · rw [← hdrop]
    unfold BufferedReader.ahead
    dsimp only
    rw [List.drop_drop]

/-- When not enough bytes come the stream is closed. -/
theorem getAmount_short (h : reader.Steady) (hshort : reader.unread.length < amount) :
    (bufferedReaderGetAmount reader amount).2 = .eof ∧
      (bufferedReaderGetAmount reader amount).1.state = .closed := by
  have hlen := unread_length reader
  unfold BufferedReader.ahead at hlen
  rw [List.length_drop] at hlen
  have hclosed : (bufferedReaderGetDataUntil reader amount).state = .closed := by
    unfold bufferedReaderGetDataUntil
    rw [getAvailableDataLength_ready h.toReady]
    dsimp only
    rw [if_neg (by omega)]
    exact (getMoreDataExactLoop_short h _ (by omega)
      (Nat.lt_succ_of_le (toCome_eq h.onlyBytes).ge)).1
  rw [getAmount_ready h.toReady]
  dsimp only
  rw [if_pos (by rw [hclosed]; nofun)]
  exact ⟨if_pos hclosed, hclosed⟩

/-! ## Reading to the end -/

theorem getUntilEndLoop_steady (h : reader.Steady)
    (hfuel : (arriving reader.incoming).length < fuel) :
    (getUntilEndLoop fuel reader).state = .closed ∧
      (getUntilEndLoop fuel reader).data = ⟨reader.data.cursor, reader.whole⟩ := by
  induction fuel generalizing reader with
  | zero => exact absurd hfuel (Nat.not_lt_zero _)
  | succ fuel ih =>
    have hcome : (arriving reader.incoming).length < reader.toCome + 1 :=
      Nat.lt_succ_of_le (toCome_eq h.onlyBytes).ge
    unfold getUntilEndLoop bufferedReaderGetMoreDataExact
    dsimp only
    rcases getMoreDataExactLoop_ready h.toReady bufferedReaderChunkSize (by decide) hcome with
      ⟨hthere, happ⟩ | ⟨hshort, -⟩
    · have hsteady : (getMoreDataExactLoop (reader.toCome + 1) reader
          bufferedReaderChunkSize).Steady := ⟨happ.ready, getMoreDataExactLoop_onlyBytes _ h _⟩
      have hless := congrArg List.length happ.arriving
      rw [List.length_append, List.length_take] at hless
      have hchunk : bufferedReaderChunkSize = 512 := rfl
      obtain ⟨hclosed, hdata⟩ := ih hsteady (by omega)
      rw [if_pos happ.ready.state]
      refine ⟨hclosed, ?_⟩
      rw [hdata, happ.cursor, happ.whole]
    · obtain ⟨hclosed, hdata⟩ := getMoreDataExactLoop_short h _ hshort hcome
      rw [if_neg (by rw [hclosed]; rintro ⟨⟩)]
      exact ⟨hclosed, hdata⟩

/-- **All that comes is delivered**, and the stream is closed. -/
theorem getUntilEnd_ok (h : reader.Steady) :
    (bufferedReaderGetUntilEnd reader).2 = .ok reader.unread ∧
      (bufferedReaderGetUntilEnd reader).1.state = .closed := by
  obtain ⟨hclosed, hdata⟩ := getUntilEndLoop_steady h
    (Nat.lt_succ_of_le (toCome_eq h.onlyBytes).ge)
  unfold bufferedReaderGetUntilEnd
  rw [isSafeToRead_eq h.state h.cursor]
  dsimp only
  rw [if_neg (by rw [hclosed]; nofun), hdata, unread_eq_whole h.toReady]
  exact ⟨rfl, rfl⟩

/-- A stream that was read without a failure: it only ends behind bytes, and what was read so far
is bytes. -/
structure NoFailure (reader reader' : BufferedReader) : Prop where
  closed : reader'.state = .closed → OnlyBytes reader.incoming
  opened : reader'.state = .open → OnlyBytes reader'.incoming → OnlyBytes reader.incoming

theorem NoFailure.refl (h : reader.state = .open) : NoFailure reader reader := by
  refine ⟨fun hclosed => ?_, fun _ hbytes => hbytes⟩
  rw [h] at hclosed
  cases hclosed

/-- An open reader that is not safe to read fails. -/
theorem isSafeToRead_error {stopped : BufferedReader} (hopen : reader.state = .open)
    (h : bufferedReaderIsSafeToRead reader = (stopped, false)) : stopped.state = .error := by
  unfold bufferedReaderIsSafeToRead at h
  rw [if_neg (not_not.2 hopen)] at h
  split_ifs at h
  · rw [← (Prod.mk.inj h).1]
  · cases (Prod.mk.inj h).2

theorem NoFailure.trans {reader'' : BufferedReader} (h : NoFailure reader reader')
    (h' : NoFailure reader' reader'') (hopen : reader'.state = .open) :
    NoFailure reader reader'' :=
  ⟨fun hclosed => h.opened hopen (h'.closed hclosed),
    fun hopen' hbytes => h.opened hopen (h'.opened hopen' hbytes)⟩

theorem onlyBytes_of_leftOver {bytes : Bytes} {more : List Incoming}
    (h : OnlyBytes (leftOver bytes ++ more)) : OnlyBytes more :=
  fun i hi => h i (List.mem_append_right _ hi)

theorem getMoreDataPartially_noFailure (hopen : reader.state = .open) (amount : ℕ) :
    NoFailure reader (bufferedReaderGetMoreDataPartially reader amount).1 := by
  unfold bufferedReaderGetMoreDataPartially
  split
  · rename_i stopped hsafe
    have herror := isSafeToRead_error hopen hsafe
    refine ⟨fun hclosed => ?_, fun hopened => ?_⟩
    · rw [herror] at hclosed
      cases hclosed
    · rw [herror] at hopened
      cases hopened
  · rename_i safe hsafe
    obtain ⟨rfl, -, -⟩ := isSafeToRead_true hsafe
    dsimp only
    split
    · exact ⟨nofun, nofun⟩
    · rename_i hin
      refine ⟨fun _ => ?_, nofun⟩
      rw [hin]
      exact nofun
    · exact ⟨nofun, nofun⟩
    · rename_i first arrived rest hin
      refine ⟨nofun, fun _ hbytes i hi => ?_⟩
      rw [hin] at hi
      rcases List.mem_cons.1 hi with rfl | hi
      · exact ⟨first, arrived, rfl⟩
      · exact onlyBytes_of_leftOver hbytes i hi

theorem getMoreDataExactLoop_noFailure (fuel : ℕ) (hopen : reader.state = .open) (amount : ℕ) :
    NoFailure reader (getMoreDataExactLoop fuel reader amount) := by
  induction fuel generalizing reader amount with
  | zero => exact .refl hopen
  | succ fuel ih =>
    have hstep := getMoreDataPartially_noFailure hopen amount
    unfold getMoreDataExactLoop
    rw [if_neg (not_not.2 hopen)]
    dsimp only
    split_ifs
    · refine ⟨fun h => ?_, fun h => ?_⟩
      · cases h
      · cases h
    · exact hstep
    · by_cases hnext : (bufferedReaderGetMoreDataPartially reader amount).1.state = .open
      · exact hstep.trans (ih hnext _) hnext
      · rw [getMoreDataExactLoop_stopped _ _ hnext]
        exact hstep

theorem getUntilEndLoop_noFailure (fuel : ℕ) (hopen : reader.state = .open) :
    NoFailure reader (getUntilEndLoop fuel reader) := by
  induction fuel generalizing reader with
  | zero => exact .refl hopen
  | succ fuel ih =>
    have hstep : NoFailure reader
        (bufferedReaderGetMoreDataExact reader bufferedReaderChunkSize) :=
      getMoreDataExactLoop_noFailure _ hopen _
    unfold getUntilEndLoop
    dsimp only
    split_ifs with hnext
    · exact hstep.trans (ih hnext) hnext
    · exact hstep

/-- **Reading to the end succeeds** only if nothing but bytes comes. -/
theorem getUntilEnd_onlyBytes {buffer : Bytes} (hopen : reader.state = .open)
    (h : (bufferedReaderGetUntilEnd reader).2 = .ok buffer) : OnlyBytes reader.incoming := by
  unfold bufferedReaderGetUntilEnd at h
  split at h
  · rename_i stopped hsafe
    rw [if_neg (by rw [isSafeToRead_error hopen hsafe]; nofun)] at h
    cases h
  · rename_i safe hsafe
    obtain ⟨rfl, -, -⟩ := isSafeToRead_true hsafe
    have hloop := getUntilEndLoop_noFailure (safe.toCome + 1) hopen
    have hstop : (getUntilEndLoop (safe.toCome + 1) safe).state ≠ .open :=
      getUntilEndLoop_state (Nat.lt_succ_self _)
    dsimp only at h
    split_ifs at h with herror
    refine hloop.closed ?_
    cases hstate : (getUntilEndLoop (safe.toCome + 1) safe).state with
    | «open» => exact absurd hstate hstop
    | closed => rfl
    | error => exact absurd hstate herror

/-! ## What the search leaves in the buffer -/

/-- Bytes that come one by one. -/
def singles (bytes : Bytes) : List Incoming := bytes.map fun b => .bytes b []

/-- With an empty buffer, what comes next is taken whole if it is not too long. -/
theorem nextByte_chunk {b : UInt8} {c : Bytes} {more : List Incoming} (h : reader.Ready)
    (hahead : reader.ahead = []) (hin : reader.incoming = .bytes b c :: more)
    (hc : c.length < bufferedReaderChunkSize) :
    (atNextByte reader).consume.ahead = c ∧ (atNextByte reader).consume.incoming = more := by
  have hend : reader.data.cursor ≥ reader.data.buffer.length := List.drop_eq_nil_iff.1 hahead
  have hcursor : reader.data.cursor = reader.data.buffer.length := le_antisymm h.cursor hend
  have htake : (b :: c).take bufferedReaderChunkSize = b :: c :=
    List.take_of_length_le (by rw [List.length_cons]; omega)
  have hdrop : (b :: c).drop bufferedReaderChunkSize = [] :=
    List.drop_of_length_le (by rw [List.length_cons]; omega)
  have hread : (bufferedReaderGetMoreDataPartially reader bufferedReaderChunkSize).1.data =
        ⟨reader.data.cursor, reader.data.buffer ++ b :: c⟩ ∧
      (bufferedReaderGetMoreDataPartially reader bufferedReaderChunkSize).1.incoming = more ∧
      (bufferedReaderGetMoreDataPartially reader bufferedReaderChunkSize).2 = c.length + 1 := by
    unfold bufferedReaderGetMoreDataPartially
    rw [isSafeToRead_eq h.state h.cursor]
    dsimp only
    rw [hin]
    dsimp only
    rw [htake, hdrop]
    exact ⟨rfl, rfl, rfl⟩
  have hnext : (atNextByte reader).data = ⟨reader.data.cursor, reader.data.buffer ++ b :: c⟩ ∧
      (atNextByte reader).incoming = more := by
    unfold atNextByte bufferedReaderGetMoreDataAtLeastSome
    rw [if_pos hend]
    dsimp only
    rw [if_neg (by rw [hread.2.2]; omega)]
    exact ⟨hread.1, hread.2.1⟩
  refine ⟨?_, hnext.2⟩
  unfold BufferedReader.ahead BufferedReader.consume
  dsimp only
  rw [hnext.1]
  dsimp only
  rw [hcursor, List.drop_append, List.drop_of_length_le (Nat.le_succ _), List.nil_append,
    Nat.add_sub_cancel_left, List.drop_succ_cons, List.drop_zero]

theorem unread_of_ahead_nil {b : UInt8} {c : Bytes} {more : List Incoming}
    (hahead : reader.ahead = []) (hin : reader.incoming = .bytes b c :: more) :
    reader.unread = b :: (c ++ arriving more) := by
  unfold BufferedReader.unread
  rw [hin]
  unfold BufferedReader.ahead at hahead
  rw [hahead]
  rfl

/-- A delimiter whose bytes come one by one: the rest is as it was, and nothing is read ahead. -/
theorem getUntilDelimiterLoop_singles {xs : Bytes} {more : List Incoming} (h : reader.Steady)
    (hahead : reader.ahead = []) (hin : reader.incoming = singles xs ++ more)
    (hscan : scan delimiter reader.unread index = some n) (hn : n ≤ xs.length) (hfuel : n ≤ fuel) :
    (getUntilDelimiterLoop delimiter start fuel reader index).1.ahead = [] ∧
      (getUntilDelimiterLoop delimiter start fuel reader index).1.incoming =
        singles (xs.drop n) ++ more := by
  induction xs generalizing reader index n fuel with
  | nil =>
    have := (scan_le hscan).1
    rw [List.length_nil] at hn
    omega
  | cons x xs ih =>
    have hpos := (scan_le hscan).1
    obtain ⟨fuel, rfl⟩ : ∃ m, fuel = m + 1 := ⟨fuel - 1, by omega⟩
    have hin : reader.incoming = .bytes x [] :: (singles xs ++ more) := hin
    have hunread := unread_of_ahead_nil hahead hin
    obtain ⟨hstep, hrest, -⟩ := nextByte_forward h hunread
    obtain ⟨hahead', hin'⟩ := nextByte_chunk h.toReady hahead hin (by decide)
    have hgo : ∀ {i : ℕ}, (scan delimiter ([] ++ arriving (singles xs ++ more)) i).map (· + 1) =
        some n →
        (getUntilDelimiterLoop delimiter start fuel (atNextByte reader).consume i).1.ahead = [] ∧
        (getUntilDelimiterLoop delimiter start fuel (atNextByte reader).consume i).1.incoming =
          singles ((x :: xs).drop n) ++ more := by
      intro i hi
      obtain ⟨m, hm, rfl⟩ := Option.map_eq_some_iff.1 hi
      rw [← hrest] at hm
      rw [List.length_cons] at hn
      exact ih hstep.steady hahead' hin' hm (by omega) (by omega)
    rw [getUntilDelimiterLoop_cons h hunread]
    rw [hunread] at hscan
    unfold scan at hscan
    dsimp only
    split_ifs at hscan ⊢
    · cases hscan
      exact ⟨hahead', hin'⟩
    · exact hgo hscan
    · exact hgo hscan

/-- A delimiter whose last byte comes together with others: these are left in the buffer. -/
theorem getUntilDelimiterLoop_chunk {xs c : Bytes} {b : UInt8} {more : List Incoming}
    (h : reader.Steady) (hahead : reader.ahead = [])
    (hin : reader.incoming = singles xs ++ .bytes b c :: more)
    (hc : c.length < bufferedReaderChunkSize)
    (hscan : scan delimiter reader.unread index = some (xs.length + 1))
    (hfuel : xs.length < fuel) :
    (getUntilDelimiterLoop delimiter start fuel reader index).1.ahead = c ∧
      (getUntilDelimiterLoop delimiter start fuel reader index).1.incoming = more := by
  induction xs generalizing reader index fuel with
  | nil =>
    obtain ⟨fuel, rfl⟩ : ∃ m, fuel = m + 1 := ⟨fuel - 1, by omega⟩
    have hunread := unread_of_ahead_nil hahead hin
    obtain ⟨hahead', hin'⟩ := nextByte_chunk h.toReady hahead hin hc
    -- the search is over with this byte
    have hlast : ∀ {i : ℕ}, (scan delimiter (c ++ arriving more) i).map (· + 1) ≠ some 1 := by
      intro i hi
      obtain ⟨m, hm, hone⟩ := Option.map_eq_some_iff.1 hi
      have := (scan_le hm).1
      omega
    rw [getUntilDelimiterLoop_cons h hunread]
    rw [hunread] at hscan
    unfold scan at hscan
    dsimp only
    split_ifs at hscan ⊢
    · exact ⟨hahead', hin'⟩
    · exact absurd hscan hlast
    · exact absurd hscan hlast
  | cons x xs ih =>
    obtain ⟨fuel, rfl⟩ : ∃ m, fuel = m + 1 := ⟨fuel - 1, by omega⟩
    have hin : reader.incoming = .bytes x [] :: (singles xs ++ .bytes b c :: more) := hin
    have hunread := unread_of_ahead_nil hahead hin
    obtain ⟨hstep, hrest, -⟩ := nextByte_forward h hunread
    obtain ⟨hahead', hin'⟩ := nextByte_chunk h.toReady hahead hin (by decide)
    rw [List.length_cons] at hscan hfuel
    have hgo : ∀ {i : ℕ},
        (scan delimiter ([] ++ arriving (singles xs ++ .bytes b c :: more)) i).map (· + 1) =
          some (xs.length + 1 + 1) →
        (getUntilDelimiterLoop delimiter start fuel (atNextByte reader).consume i).1.ahead = c ∧
        (getUntilDelimiterLoop delimiter start fuel (atNextByte reader).consume i).1.incoming =
          more := by
      intro i hi
      obtain ⟨m, hm, hsucc⟩ := Option.map_eq_some_iff.1 hi
      obtain rfl : m = xs.length + 1 := by omega
      rw [← hrest] at hm
      exact ih hstep.steady hahead' hin' hm (by omega)
    rw [getUntilDelimiterLoop_cons h hunread]
    rw [hunread] at hscan
    unfold scan at hscan
    dsimp only
    split_ifs at hscan ⊢
    · cases hscan
    · exact hgo hscan
    · exact hgo hscan

theorem getUntilDelimiter_singles {xs : Bytes} {more : List Incoming} (h : reader.Steady)
    (hahead : reader.ahead = []) (hin : reader.incoming = singles xs ++ more)
    (hscan : scan delimiter reader.unread 0 = some n) (hn : n ≤ xs.length) :
    (bufferedReaderGetUntilDelimiter reader delimiter).1.ahead = [] ∧
      (bufferedReaderGetUntilDelimiter reader delimiter).1.incoming =
        singles (xs.drop n) ++ more := by
  have hle := (scan_le hscan).2
  rw [getUntilDelimiter_steady h]
  exact getUntilDelimiterLoop_singles h hahead hin hscan hn (by omega)

theorem getUntilDelimiter_chunk {xs c : Bytes} {b : UInt8} {more : List Incoming}
    (h : reader.Steady) (hahead : reader.ahead = [])
    (hin : reader.incoming = singles xs ++ .bytes b c :: more)
    (hc : c.length < bufferedReaderChunkSize)
    (hscan : scan delimiter reader.unread 0 = some (xs.length + 1)) :
    (bufferedReaderGetUntilDelimiter reader delimiter).1.ahead = c ∧
      (bufferedReaderGetUntilDelimiter reader delimiter).1.incoming = more := by
  have hle := (scan_le hscan).2
  rw [getUntilDelimiter_steady h]
  exact getUntilDelimiterLoop_chunk h hahead hin hc hscan (by omega)

end SimpleServer.Utils
