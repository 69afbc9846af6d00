import SimpleServer.Utils.Bytes

/-!
# The buffered reader (`utils/buffered_reader.c`)

All protocols read through one buffer that grows by what a request still misses. The
descriptor and the heap are what the reader finds outside: `incoming` lists what each
further request meets, and the end of the list is the end of the stream.

* `bufferedReaderGetMoreDataPartially` is the only place where memory is requested and
  bytes are stored; it notes each request in `requests`.
* `bufferedReaderGetAmount`, `bufferedReaderGetUntilDelimiter`, `bufferedReaderGetUntilEnd`
  and `bufferedReaderInvalidateOldData` are what the protocols use.
* `MoreData` says what a request does to the buffer.
* `bufferedReaderGetMoreDataExact_open` and `getUntilEndLoop_state`: the loops run to their end.
-/

namespace SimpleServer.Utils

/-- The values of a `size_t` are those below it. -/
def sizeLimit : ℕ := 2 ^ 64

inductive StreamState
  | open
  | closed
  | error
deriving Repr, DecidableEq

/-- What one request finds: `realloc` returns `NULL`, the read fails, or these bytes have
arrived. A read never delivers more than it is asked for; the rest is there for the next. -/
inductive Incoming
  | noMemory
  | failure
  | bytes (first : UInt8) (rest : Bytes)
deriving Repr, DecidableEq

/-- The number of bytes that arrive. -/
def Incoming.count : Incoming → ℕ
  | .bytes _ rest => rest.length + 1
  | _ => 0

/-- A call of `realloc` for `amount` more bytes behind the `size` bytes in the buffer. -/
structure BufferRequest where
  size : ℕ
  amount : ℕ
  /-- The size handed to `realloc`. -/
  reallocSize : ℕ
  /-- `realloc` did not return `NULL`, and the bytes are read. -/
  granted : Bool
deriving Repr, DecidableEq

structure BufferedData where
  cursor : ℕ
  buffer : Bytes
deriving Repr, DecidableEq

structure BufferedReader where
  incoming : List Incoming
  state : StreamState
  data : BufferedData
  /-- The requests made so far (not in the source). -/
  requests : List BufferRequest
deriving Repr, DecidableEq

/-- `BufferedReadResultTypeOk` with its buffer, and the two failures. -/
inductive BufferedReadResult
  | ok (buffer : Bytes)
  | err (error : String)
  | eof
deriving Repr, DecidableEq

def getBufferedReader (incoming : List Incoming) : BufferedReader :=
  ⟨incoming, .open, ⟨0, []⟩, []⟩

/-- The number of bytes that are still to come. -/
def BufferedReader.toCome (reader : BufferedReader) : ℕ :=
  (reader.incoming.map Incoming.count).sum

def bufferedReaderIsSafeToRead (reader : BufferedReader) : BufferedReader × Bool :=
  if reader.state ≠ .open then (reader, false)
  else if reader.data.cursor > reader.data.buffer.length then
    ({ reader with state := .error }, false)
  else (reader, true)

/-- `BUFFERED_READER_CHUNK_SIZE`. -/
def bufferedReaderChunkSize : ℕ := 512

/-- The bytes that arrived beyond the ones a read took. -/
def leftOver : Bytes → List Incoming
  | [] => []
  | b :: rest => [.bytes b rest]

/-- One request: `realloc` and one read. Returns the number of bytes read. -/
def bufferedReaderGetMoreDataPartially (reader : BufferedReader) (amount : ℕ) :
    BufferedReader × ℕ :=
  match bufferedReaderIsSafeToRead reader with
  | (reader, false) => (reader, 0)
  | (reader, true) =>
    -- the sum is one of two `size_t`
    let request : BufferRequest :=
      { size := reader.data.buffer.length
        amount := amount
        reallocSize := (reader.data.buffer.length + amount) % sizeLimit
        granted := reader.incoming.head? ≠ some .noMemory }
    let reader := { reader with requests := reader.requests ++ [request] }
    match reader.incoming with
    | .noMemory :: rest => ({ reader with incoming := rest, state := .error }, 0)
    | [] => ({ reader with state := .closed }, 0)
    | .failure :: rest => ({ reader with incoming := rest, state := .error }, 0)
    | .bytes first arrived :: rest =>
      let bytes := (first :: arrived).take amount
      ({ reader with
          incoming := leftOver ((first :: arrived).drop amount) ++ rest
          state := .open
          data := { reader.data with buffer := reader.data.buffer ++ bytes } }, bytes.length)

/-- The loop of `buffered_reader_get_more_data_exact`. -/
def getMoreDataExactLoop : ℕ → BufferedReader → ℕ → BufferedReader
  | 0, reader, _ => reader
  | fuel + 1, reader, amountLeft =>
    if reader.state ≠ .open then reader
    else
      match bufferedReaderGetMoreDataPartially reader amountLeft with
      | (reader, dataRead) =>
        if dataRead > amountLeft then { reader with state := .error }
        else if dataRead = amountLeft then reader
        else getMoreDataExactLoop fuel reader (amountLeft - dataRead)

/-- Every round reads a byte that is to come, or is the last. -/
def bufferedReaderGetMoreDataExact (reader : BufferedReader) (amount : ℕ) : BufferedReader :=
  getMoreDataExactLoop (reader.toCome + 1) reader amount

def bufferedReaderGetMoreDataAtLeastSome (reader : BufferedReader) (amount : ℕ) :
    BufferedReader :=
  match bufferedReaderGetMoreDataPartially reader amount with
  | (reader, dataRead) =>
    if reader.state = .open ∧ dataRead < 1 then { reader with state := .error } else reader

def getAvailableDataLength (reader : BufferedReader) : BufferedReader × ℕ :=
  match bufferedReaderIsSafeToRead reader with
  | (reader, false) => (reader, 0)
  | (reader, true) => (reader, reader.data.buffer.length - reader.data.cursor)

def bufferedReaderGetDataUntil (reader : BufferedReader) (amount : ℕ) : BufferedReader :=
  match getAvailableDataLength reader with
  | (reader, currentAmount) =>
    if currentAmount ≥ amount then reader
    else bufferedReaderGetMoreDataExact reader (amount - currentAmount)

/-- What a reader answers that is not open. -/
def notOpenResult (reader : BufferedReader) (error : String) : BufferedReadResult :=
  if reader.state = .closed then .eof else .err error

/-- The start of a round of the search for a delimiter: a byte is there, if the stream is open. -/
def atNextByte (reader : BufferedReader) : BufferedReader :=
  if reader.data.cursor ≥ reader.data.buffer.length then
    bufferedReaderGetMoreDataAtLeastSome reader bufferedReaderChunkSize
  else reader

/-- The loop of `buffered_reader_get_until_delimiter_impl`; the delimiter is a C string, which
is followed by a zero byte. -/
def getUntilDelimiterLoop (delimiter : Bytes) (startCursor : ℕ) :
    ℕ → BufferedReader → ℕ → BufferedReader × BufferedReadResult
  | 0, reader, _ => (reader, .eof)
  | fuel + 1, reader, delimiterIndex =>
    let reader := atNextByte reader
    if reader.state ≠ .open then
      (reader, notOpenResult reader "Failed to get more data in read until delimiter")
    else
      let advanced :=
        { reader with data := { reader.data with cursor := reader.data.cursor + 1 } }
      if reader.data.buffer.getD reader.data.cursor 0 = delimiter.getD delimiterIndex 0 then
        if delimiterIndex + 1 ≥ delimiter.length then
          (advanced, .ok ((reader.data.buffer.drop startCursor).take
            (advanced.data.cursor - startCursor - delimiter.length)))
        else getUntilDelimiterLoop delimiter startCursor fuel advanced (delimiterIndex + 1)
      else getUntilDelimiterLoop delimiter startCursor fuel advanced 0

def bufferedReaderGetUntilDelimiter (reader : BufferedReader) (delimiter : Bytes) :
    BufferedReader × BufferedReadResult :=
  match bufferedReaderIsSafeToRead reader with
  | (reader, false) =>
    (reader, notOpenResult reader "Failed to get more data in read until delimiter")
  | (reader, true) =>
    getUntilDelimiterLoop delimiter reader.data.cursor
      (reader.data.buffer.length - reader.data.cursor + reader.toCome + 1) reader 0

/-- The loop of `buffered_reader_get_until_end`. -/
def getUntilEndLoop : ℕ → BufferedReader → BufferedReader
  | 0, reader => reader
  | fuel + 1, reader =>
    let reader := bufferedReaderGetMoreDataExact reader bufferedReaderChunkSize
    if reader.state = .open then getUntilEndLoop fuel reader else reader

def bufferedReaderGetUntilEnd (reader : BufferedReader) : BufferedReader × BufferedReadResult :=
  match bufferedReaderIsSafeToRead reader with
  | (reader, false) =>
    if reader.state = .closed then (reader, .ok [])
    else (reader, .err "Failed to get more data in read until end")
  | (reader, true) =>
    let reader := getUntilEndLoop (reader.toCome + 1) reader
    if reader.state = .error then (reader, .err "Failed to get more data in read until end")
    else
      ({ reader with
          state := .closed
          data := { reader.data with cursor := reader.data.buffer.length } },
        .ok (reader.data.buffer.drop reader.data.cursor))

def bufferedReaderGetAmount (reader : BufferedReader) (amount : ℕ) :
    BufferedReader × BufferedReadResult :=
  match bufferedReaderIsSafeToRead reader with
  | (reader, false) =>
    (reader, notOpenResult reader "Failed to get more data in read amount at start")
  | (reader, true) =>
    let reader := bufferedReaderGetDataUntil reader amount
    if reader.state ≠ .open then
      (reader, notOpenResult reader
        "Failed to get more data in read amount, stream not open anymore")
    else
      match getAvailableDataLength reader with
      | (reader, size) =>
        if size < amount then (reader, .err "Failed to get more data in get amount")
        else
          ({ reader with data := { reader.data with cursor := reader.data.cursor + amount } },
            .ok ((reader.data.buffer.drop reader.data.cursor).take amount))

/-- Drops what was consumed; `granted` says whether the `malloc` of the copy succeeds. -/
def bufferedReaderInvalidateOldData (reader : BufferedReader) (granted : Bool) :
    BufferedReader :=
  match bufferedReaderIsSafeToRead reader with
  | (reader, false) => reader
  | (reader, true) =>
    match getAvailableDataLength reader with
    | (reader, 0) => { reader with data := ⟨0, []⟩ }
    | (reader, _ + 1) =>
      if granted then { reader with data := ⟨0, reader.data.buffer.drop reader.data.cursor⟩ }
      else reader

/-- `buffered_reader_has_more_data`; it answers whether nothing is left in the buffer. -/
def bufferedReaderHasMoreData (reader : BufferedReader) : Bool :=
  if reader.state = .closed then true
  else if reader.data.cursor < reader.data.buffer.length then false
  else true

/-! ## What a request does to the buffer -/

/-- `reader'` is `reader` after `count` bytes were appended of the `amount` requested. -/
structure MoreData (reader : BufferedReader) (amount : ℕ) (reader' : BufferedReader)
    (count : ℕ) : Prop where
  buffer : reader'.data.buffer.length = reader.data.buffer.length + count
  cursor : reader'.data.cursor = reader.data.cursor
  le : count ≤ amount
  toCome : reader'.toCome + count ≤ reader.toCome
  progress : reader'.state = .open → 0 < amount → 0 < count

@[simp] theorem leftOver_count (bs : Bytes) :
    ((leftOver bs).map Incoming.count).sum = bs.length := by
  cases bs <;> simp [leftOver, Incoming.count]

theorem isSafeToRead_false {reader reader' : BufferedReader}
    (h : bufferedReaderIsSafeToRead reader = (reader', false)) :
    reader'.state ≠ .open ∧ reader'.data = reader.data ∧ reader'.incoming = reader.incoming ∧
      reader'.requests = reader.requests := by
  unfold bufferedReaderIsSafeToRead at h
  split_ifs at h with h1 h2
  · cases h
    exact ⟨h1, rfl, rfl, rfl⟩
  · cases h
    exact ⟨nofun, rfl, rfl, rfl⟩
  · cases h

theorem isSafeToRead_true {reader reader' : BufferedReader}
    (h : bufferedReaderIsSafeToRead reader = (reader', true)) :
    reader' = reader ∧ reader.state = .open ∧
      reader.data.cursor ≤ reader.data.buffer.length := by
  unfold bufferedReaderIsSafeToRead at h
  split_ifs at h with h1 h2
  · cases h
  · cases h
  · cases h
    exact ⟨rfl, not_not.1 h1, not_lt.1 h2⟩

theorem isSafeToRead_eq {reader : BufferedReader} (hopen : reader.state = .open)
    (hcursor : reader.data.cursor ≤ reader.data.buffer.length) :
    bufferedReaderIsSafeToRead reader = (reader, true) := by
  rw [bufferedReaderIsSafeToRead, if_neg (not_not.2 hopen), if_neg (not_lt.2 hcursor)]

theorem moreData_refl {reader reader' : BufferedReader} (amount : ℕ)
    (hdata : reader'.data = reader.data) (hcome : reader'.toCome ≤ reader.toCome)
    (hstate : reader'.state ≠ .open) : MoreData reader amount reader' 0 where
  buffer := by rw [hdata, Nat.add_zero]
  cursor := by rw [hdata]
  le := Nat.zero_le _
  toCome := hcome
  progress := fun h => absurd h hstate

theorem getMoreDataPartially_moreData (reader : BufferedReader) (amount : ℕ) :
    MoreData reader amount (bufferedReaderGetMoreDataPartially reader amount).1
      (bufferedReaderGetMoreDataPartially reader amount).2 := by
  unfold bufferedReaderGetMoreDataPartially
  split
  · rename_i reader' h
    obtain ⟨hstate, hdata, hin, -⟩ := isSafeToRead_false h
    exact moreData_refl amount hdata (by rw [BufferedReader.toCome, hin]; rfl) hstate
  · rename_i reader' h
    obtain ⟨rfl, -, -⟩ := isSafeToRead_true h
    dsimp only
    split
    · rename_i rest hin
      exact moreData_refl amount rfl (by simp [BufferedReader.toCome, hin, Incoming.count]) nofun
    · rename_i hin
      exact moreData_refl amount rfl le_rfl nofun
    · rename_i rest hin
      exact moreData_refl amount rfl (by simp [BufferedReader.toCome, hin, Incoming.count]) nofun
    · rename_i first arrived rest hin
      constructor
      · simp
      · rfl
      · simp
      · have hlen : ((first :: arrived).drop amount).length +
            ((first :: arrived).take amount).length = arrived.length + 1 := by
          simp only [List.length_drop, List.length_take, List.length_cons]
          omega
        simp only [BufferedReader.toCome, hin, List.map_append, List.sum_append, leftOver_count,
          List.map_cons, List.sum_cons, Incoming.count]
        omega
      · intro _ hpos
        simp only [List.length_take, List.length_cons]
        omega

/-! ## The loops -/

/-- `reader'` is `reader` after some of what is to come was appended. -/
structure Grows (reader reader' : BufferedReader) : Prop where
  buffer : reader.data.buffer.length ≤ reader'.data.buffer.length
  total : reader'.data.buffer.length + reader'.toCome ≤
    reader.data.buffer.length + reader.toCome
  cursor : reader'.data.cursor = reader.data.cursor

variable {reader reader' reader'' : BufferedReader} {amount count fuel : ℕ}

theorem Grows.refl (reader : BufferedReader) : Grows reader reader := ⟨le_rfl, le_rfl, rfl⟩

theorem Grows.trans (h : Grows reader reader') (h' : Grows reader' reader'') :
    Grows reader reader'' :=
  ⟨h.buffer.trans h'.buffer, h'.total.trans h.total, h'.cursor.trans h.cursor⟩

theorem MoreData.grows (h : MoreData reader amount reader' count) : Grows reader reader' := by
  have hbuffer := h.buffer
  have htoCome := h.toCome
  exact ⟨by omega, by omega, h.cursor⟩

theorem getMoreDataExactLoop_grows (fuel : ℕ) (reader : BufferedReader) (amount : ℕ) :
    Grows reader (getMoreDataExactLoop fuel reader amount) := by
  induction fuel generalizing reader amount with
  | zero => exact Grows.refl reader
  | succ fuel ih =>
    have hmore := (getMoreDataPartially_moreData reader amount).grows
    unfold getMoreDataExactLoop
    dsimp only
    split_ifs
    · exact Grows.refl reader
    · exact ⟨hmore.buffer, hmore.total, hmore.cursor⟩
    · exact hmore
    · exact hmore.trans (ih _ _)

theorem getMoreDataExactLoop_stopped (fuel : ℕ) (amount : ℕ) (h : reader.state ≠ .open) :
    getMoreDataExactLoop fuel reader amount = reader := by
  cases fuel with
  | zero => rfl
  | succ fuel => rw [getMoreDataExactLoop, if_pos h]

/-- With enough rounds the loop only ends when all is read or the stream is not open. -/
theorem getMoreDataExactLoop_open (hfuel : reader.toCome < fuel) (hpos : 0 < amount)
    (hopen : (getMoreDataExactLoop fuel reader amount).state = .open) :
    (getMoreDataExactLoop fuel reader amount).data.buffer.length =
      reader.data.buffer.length + amount := by
  induction fuel generalizing reader amount with
  | zero => exact absurd hfuel (Nat.not_lt_zero _)
  | succ fuel ih =>
    have hmore := getMoreDataPartially_moreData reader amount
    unfold getMoreDataExactLoop at hopen ⊢
    dsimp only at hopen ⊢
    split_ifs at hopen ⊢ with h1 h2 h3
    · exact absurd hopen h1
    · rw [hmore.buffer, h3]
    · have hle := hmore.le
      have hbuffer := hmore.buffer
      have hcome := hmore.toCome
      -- a round that reads nothing leaves the stream closed or failed, and the loop stops
      have hread : 0 < (bufferedReaderGetMoreDataPartially reader amount).2 := by
        by_contra hzero
        have hclosed : (bufferedReaderGetMoreDataPartially reader amount).1.state ≠ .open :=
          fun h => hzero (hmore.progress h hpos)
        rw [getMoreDataExactLoop_stopped fuel _ hclosed] at hopen
        exact hclosed hopen
      rw [ih (by omega) (by omega) hopen]
      omega

/-- **A request for an exact amount** that leaves the stream open has appended the amount. -/
theorem bufferedReaderGetMoreDataExact_open (hpos : 0 < amount)
    (hopen : (bufferedReaderGetMoreDataExact reader amount).state = .open) :
    (bufferedReaderGetMoreDataExact reader amount).data.buffer.length =
      reader.data.buffer.length + amount :=
  getMoreDataExactLoop_open (Nat.lt_succ_self _) hpos hopen

theorem getMoreDataExact_grows (reader : BufferedReader) (amount : ℕ) :
    Grows reader (bufferedReaderGetMoreDataExact reader amount) :=
  getMoreDataExactLoop_grows _ _ _

theorem getMoreDataAtLeastSome_grows (reader : BufferedReader) (amount : ℕ) :
    Grows reader (bufferedReaderGetMoreDataAtLeastSome reader amount) := by
  have hmore := (getMoreDataPartially_moreData reader amount).grows
  unfold bufferedReaderGetMoreDataAtLeastSome
  dsimp only
  split_ifs
  · exact ⟨hmore.buffer, hmore.total, hmore.cursor⟩
  · exact hmore

/-- Reading to the end only stops at the end of the stream or at an error. -/
theorem getUntilEndLoop_state (hfuel : reader.toCome < fuel) :
    (getUntilEndLoop fuel reader).state ≠ .open := by
  induction fuel generalizing reader with
  | zero => exact absurd hfuel (Nat.not_lt_zero _)
  | succ fuel ih =>
    unfold getUntilEndLoop
    dsimp only
    split_ifs with hopen
    · have hlen := bufferedReaderGetMoreDataExact_open (by decide) hopen
      have htotal := (getMoreDataExact_grows reader bufferedReaderChunkSize).total
      have hchunk : bufferedReaderChunkSize = 512 := rfl
      exact ih (by omega)
    · exact hopen

theorem atNextByte_grows (reader : BufferedReader) : Grows reader (atNextByte reader) := by
  unfold atNextByte
  split_ifs
  · exact getMoreDataAtLeastSome_grows reader _
  · exact Grows.refl reader

end SimpleServer.Utils
