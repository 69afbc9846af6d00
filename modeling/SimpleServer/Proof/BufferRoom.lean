import SimpleServer.Lib.Run
import SimpleServer.Utils.BufferedReader

/-!
# Room in the read buffer

`bufferedReaderGetMoreDataPartially` grows the buffer to the sum of its fill level and the
amount that is missing, in `size_t` arithmetic. The amount is chosen by the peer: a
Content-Length, a WebSocket payload length, an HTTP/2 frame length.

* `getMoreDataExactLoop_fits`: all rounds of one exact request ask for the same total.
* `getAmount_fits_iff`: an amount is read into memory that is there exactly when the position
  behind it is a `size_t`, or nothing is read.
* `bufferRoom_of_along`: the run lemma.
-/

namespace SimpleServer.Utils

open Lib

/-- What is read lies in what was allocated: the size handed to `realloc` is the sum, and every
offset that may be written is below it. A request that is not granted reads nothing. -/
def BufferRequest.Fits (request : BufferRequest) : Prop :=
  request.granted = true →
    request.reallocSize = request.size + request.amount ∧
      ∀ offset < request.size + request.amount, offset < request.reallocSize

/-- What a protocol asks of the reader. An amount is any `size_t`. -/
inductive ReaderCall
  | getAmount (amount : UInt64)
  | getUntilDelimiter (delimiter : Bytes)
  | getUntilEnd
  | invalidateOldData (granted : Bool)
deriving Repr, DecidableEq

def readerStep (reader : BufferedReader) : ReaderCall → BufferedReader
  | .getAmount amount => (bufferedReaderGetAmount reader amount.toNat).1
  | .getUntilDelimiter delimiter => (bufferedReaderGetUntilDelimiter reader delimiter).1
  | .getUntilEnd => (bufferedReaderGetUntilEnd reader).1
  | .invalidateOldData granted => bufferedReaderInvalidateOldData reader granted

/-- Every request of the reader so far fits. -/
def AllFit (reader : BufferedReader) : Prop := ∀ request ∈ reader.requests, request.Fits

/-- In a run over these calls every request fits. -/
def BufferRoom (incoming : List Incoming) (calls : List ReaderCall) : Prop :=
  AllFit (runFrom readerStep (getBufferedReader incoming) calls)

/-- An amount is buffered already, or the position behind it is a `size_t`, or there is no memory
for it; and what is read in chunks stays a chunk below the limit. -/
def LengthFits (reader : BufferedReader) : ReaderCall → Prop
  | .getAmount amount =>
    reader.state = .open → reader.data.cursor ≤ reader.data.buffer.length →
      amount.toNat ≤ reader.data.buffer.length - reader.data.cursor ∨
        reader.data.cursor + amount.toNat < sizeLimit ∨
        reader.incoming.head? = some .noMemory
  | .getUntilDelimiter _ | .getUntilEnd =>
    reader.data.buffer.length + reader.toCome + bufferedReaderChunkSize < sizeLimit
  | .invalidateOldData _ => True

instance (reader : BufferedReader) : (call : ReaderCall) → Decidable (LengthFits reader call)
  | .getAmount _ => inferInstanceAs (Decidable (_ → _ → _ ∨ _ ∨ _))
  | .getUntilDelimiter _ | .getUntilEnd => inferInstanceAs (Decidable (_ < _))
  | .invalidateOldData _ => isTrue trivial

variable {reader : BufferedReader} {amount : ℕ}

/-! ## One request -/

/-- The request `bufferedReaderGetMoreDataPartially` makes. -/
def requestFor (reader : BufferedReader) (amount : ℕ) : BufferRequest :=
  { size := reader.data.buffer.length
    amount := amount
    reallocSize := (reader.data.buffer.length + amount) % sizeLimit
    granted := reader.incoming.head? ≠ some .noMemory }

theorem requestFor_fits_iff :
    (requestFor reader amount).Fits ↔ reader.data.buffer.length + amount < sizeLimit ∨
      reader.incoming.head? = some .noMemory := by
  -- the remainder is below the limit, so it is the sum only if the sum is
  have hlt : (reader.data.buffer.length + amount) % sizeLimit < sizeLimit :=
    Nat.mod_lt _ (by decide)
  simp only [BufferRequest.Fits, requestFor, decide_eq_true_eq]
  constructor
  · intro h
    by_cases hmem : reader.incoming.head? = some .noMemory
    · exact .inr hmem
    · exact .inl ((h hmem).1 ▸ hlt)
  · rintro (h | h) hmem
    · rw [Nat.mod_eq_of_lt h]
      exact ⟨rfl, fun _ => id⟩
    · exact absurd h hmem

theorem getMoreDataPartially_requests (reader : BufferedReader) (amount : ℕ) :
    (bufferedReaderGetMoreDataPartially reader amount).1.requests =
      if reader.state = .open ∧ reader.data.cursor ≤ reader.data.buffer.length then
        reader.requests ++ [requestFor reader amount]
      else reader.requests := by
  unfold bufferedReaderGetMoreDataPartially
  split
  · rename_i reader' h
    obtain ⟨-, -, -, hrequests⟩ := isSafeToRead_false h
    rw [hrequests, if_neg]
    rintro ⟨hopen, hcursor⟩
    rw [isSafeToRead_eq hopen hcursor] at h
    cases h
  · rename_i reader' h
    obtain ⟨rfl, hsafe⟩ := isSafeToRead_true h
    rw [if_pos hsafe]
    dsimp only
    split <;> rfl

theorem getMoreDataPartially_fits (hfit : AllFit reader)
    (hsum : reader.data.buffer.length + amount < sizeLimit ∨
      reader.incoming.head? = some .noMemory) :
    AllFit (bufferedReaderGetMoreDataPartially reader amount).1 := by
  unfold AllFit at *
  rw [getMoreDataPartially_requests]
  split_ifs
  · intro request hmem
    rcases List.mem_append.1 hmem with hmem | hmem
    · exact hfit request hmem
    · rw [List.mem_singleton.1 hmem, requestFor_fits_iff]
      exact hsum
  · exact hfit

theorem getMoreDataPartially_noMemory (hmem : reader.incoming.head? = some .noMemory) :
    (bufferedReaderGetMoreDataPartially reader amount).1.state ≠ .open := by
  obtain ⟨rest, hin⟩ := List.head?_eq_some_iff.1 hmem
  unfold bufferedReaderGetMoreDataPartially
  split
  · rename_i reader' h
    exact (isSafeToRead_false h).1
  · rename_i reader' h
    obtain ⟨rfl, -⟩ := isSafeToRead_true h
    dsimp only
    rw [hin]
    exact nofun

/-! ## The loops -/

/-- All rounds ask for the same total: what one round has read, the next does not ask for. -/
theorem getMoreDataExactLoop_fits (fuel : ℕ) (hfit : AllFit reader)
    (hsum : reader.data.buffer.length + amount < sizeLimit ∨
      reader.incoming.head? = some .noMemory) :
    AllFit (getMoreDataExactLoop fuel reader amount) := by
  induction fuel generalizing reader amount with
  | zero => exact hfit
  | succ fuel ih =>
    have hnext := getMoreDataPartially_fits hfit hsum
    have hmore := getMoreDataPartially_moreData reader amount
    unfold getMoreDataExactLoop
    dsimp only
    split_ifs with h1 h2 h3
    · exact hfit
    · exact hnext
    · exact hnext
    -- another round: the buffer has grown by what the next request no longer asks for
    · rcases hsum with hsum | hmem
      · refine ih hnext (.inl ?_)
        have hbuffer := hmore.buffer
        have hle := hmore.le
        omega
      · rw [getMoreDataExactLoop_stopped fuel _ (getMoreDataPartially_noMemory hmem)]
        exact hnext

theorem getMoreDataAtLeastSome_fits (hfit : AllFit reader)
    (hsum : reader.data.buffer.length + amount < sizeLimit) :
    AllFit (bufferedReaderGetMoreDataAtLeastSome reader amount) := by
  have hnext := getMoreDataPartially_fits hfit (.inl hsum)
  unfold bufferedReaderGetMoreDataAtLeastSome
  dsimp only
  split_ifs
  · exact hnext
  · exact hnext

/-- The fill level of a chunk is at most what was there and is to come at the start. -/
theorem getUntilEndLoop_fits (fuel : ℕ) (hfit : AllFit reader)
    (hsum : reader.data.buffer.length + reader.toCome + bufferedReaderChunkSize < sizeLimit) :
    AllFit (getUntilEndLoop fuel reader) := by
  induction fuel generalizing reader with
  | zero => exact hfit
  | succ fuel ih =>
    have hnext : AllFit (bufferedReaderGetMoreDataExact reader bufferedReaderChunkSize) :=
      getMoreDataExactLoop_fits _ hfit (.inl (by omega))
    have htotal := (getMoreDataExact_grows reader bufferedReaderChunkSize).total
    unfold getUntilEndLoop
    dsimp only
    split_ifs
    · exact ih hnext (by omega)
    · exact hnext

theorem getUntilDelimiterLoop_fits {delimiter : Bytes} {start index : ℕ} (fuel : ℕ)
    (hfit : AllFit reader)
    (hsum : reader.data.buffer.length + reader.toCome + bufferedReaderChunkSize < sizeLimit) :
    AllFit (getUntilDelimiterLoop delimiter start fuel reader index).1 := by
  induction fuel generalizing reader index with
  | zero => exact hfit
  | succ fuel ih =>
    have hnext : AllFit (atNextByte reader) := by
      unfold atNextByte
      split_ifs
      · exact getMoreDataAtLeastSome_fits hfit (by omega)
      · exact hfit
    -- what is buffered and what is to come never grow together
    have htotal := (atNextByte_grows reader).total
    unfold getUntilDelimiterLoop
    dsimp only
    split_ifs
    · exact hnext
    · exact hnext
    · exact ih hnext (by simp only [BufferedReader.toCome] at *; omega)
    · exact ih hnext (by simp only [BufferedReader.toCome] at *; omega)

/-! ## The calls -/

theorem isSafeToRead_requests (reader : BufferedReader) :
    (bufferedReaderIsSafeToRead reader).1.requests = reader.requests := by
  unfold bufferedReaderIsSafeToRead
  split_ifs
  · rfl
  · rfl
  · rfl

theorem getAvailableDataLength_requests (reader : BufferedReader) :
    (getAvailableDataLength reader).1.requests = reader.requests := by
  have hsafe := isSafeToRead_requests reader
  unfold getAvailableDataLength
  split
  · rename_i reader' h
    rwa [h] at hsafe
  · rename_i reader' h
    rwa [h] at hsafe

theorem isSafeToRead_allFit (hfit : AllFit reader) :
    AllFit (bufferedReaderIsSafeToRead reader).1 := by
  rwa [AllFit, isSafeToRead_requests]

theorem getAvailableDataLength_allFit (hfit : AllFit reader) :
    AllFit (getAvailableDataLength reader).1 := by
  rwa [AllFit, getAvailableDataLength_requests]

theorem getDataUntil_fits (hfit : AllFit reader) (hopen : reader.state = .open)
    (hcursor : reader.data.cursor ≤ reader.data.buffer.length)
    (h : amount ≤ reader.data.buffer.length - reader.data.cursor ∨
      reader.data.cursor + amount < sizeLimit ∨ reader.incoming.head? = some .noMemory) :
    AllFit (bufferedReaderGetDataUntil reader amount) := by
  unfold bufferedReaderGetDataUntil getAvailableDataLength
  rw [isSafeToRead_eq hopen hcursor]
  dsimp only
  split_ifs with henough
  · exact hfit
  · refine getMoreDataExactLoop_fits _ hfit ?_
    rcases h with h | h | h
    · exact absurd h henough
    · -- the fill level and what is missing add up to the position behind the amount
      exact .inl (by omega)
    · exact .inr h

theorem getMoreDataExactLoop_requests (fuel : ℕ) {request : BufferRequest}
    (hmem : request ∈ reader.requests) :
    request ∈ (getMoreDataExactLoop fuel reader amount).requests := by
  induction fuel generalizing reader amount with
  | zero => exact hmem
  | succ fuel ih =>
    have hnext : request ∈ (bufferedReaderGetMoreDataPartially reader amount).1.requests := by
      rw [getMoreDataPartially_requests]
      split_ifs
      · exact List.mem_append_left _ hmem
      · exact hmem
    unfold getMoreDataExactLoop
    dsimp only
    split_ifs
    · exact hmem
    · exact hnext
    · exact hnext
    · exact ih hnext

/-- An amount that is not there is requested. -/
theorem getDataUntil_requests (hopen : reader.state = .open)
    (hcursor : reader.data.cursor ≤ reader.data.buffer.length)
    (hmiss : ¬ amount ≤ reader.data.buffer.length - reader.data.cursor) :
    requestFor reader (amount - (reader.data.buffer.length - reader.data.cursor)) ∈
      (bufferedReaderGetDataUntil reader amount).requests := by
  unfold bufferedReaderGetDataUntil getAvailableDataLength
  rw [isSafeToRead_eq hopen hcursor]
  dsimp only
  rw [if_neg hmiss, bufferedReaderGetMoreDataExact, getMoreDataExactLoop,
    if_neg (not_not.2 hopen)]
  -- the first round of the loop makes the request, and no later one takes it back
  have hfirst : requestFor reader (amount - (reader.data.buffer.length - reader.data.cursor)) ∈
      (bufferedReaderGetMoreDataPartially reader
        (amount - (reader.data.buffer.length - reader.data.cursor))).1.requests := by
    rw [getMoreDataPartially_requests, if_pos ⟨hopen, hcursor⟩]
    exact List.mem_append_right _ (List.mem_singleton_self _)
  dsimp only
  split_ifs
  · exact hfirst
  · exact hfirst
  · exact getMoreDataExactLoop_requests _ hfirst

theorem getAmount_fits (hfit : AllFit reader) {n : UInt64} (h : LengthFits reader (.getAmount n)) :
    AllFit (bufferedReaderGetAmount reader n.toNat).1 := by
  have hsafeFit := isSafeToRead_allFit hfit
  unfold bufferedReaderGetAmount
  split
  · rename_i reader' hsafe
    rwa [hsafe] at hsafeFit
  · rename_i reader' hsafe
    obtain ⟨rfl, hopen, hcursor⟩ := isSafeToRead_true hsafe
    have hnext := getDataUntil_fits hfit hopen hcursor (h hopen hcursor)
    have havail := getAvailableDataLength_allFit hnext
    dsimp only
    split_ifs
    · exact hnext
    · exact havail
    · exact havail

/-- **The exact condition for one amount.** -/
theorem getAmount_fits_iff (hfit : AllFit reader) {n : UInt64} :
    AllFit (bufferedReaderGetAmount reader n.toNat).1 ↔ LengthFits reader (.getAmount n) := by
  refine ⟨fun h hopen hcursor => ?_, getAmount_fits hfit⟩
  by_contra hnot
  rw [not_or, not_or] at hnot
  obtain ⟨hmiss, hsum, hmem⟩ := hnot
  have hrequest := getDataUntil_requests hopen hcursor hmiss
  have hfinal : (bufferedReaderGetDataUntil reader n.toNat).requests =
      (bufferedReaderGetAmount reader n.toNat).1.requests := by
    unfold bufferedReaderGetAmount
    rw [isSafeToRead_eq hopen hcursor]
    dsimp only
    split_ifs
    · rfl
    · exact (getAvailableDataLength_requests _).symm
    · exact (getAvailableDataLength_requests _).symm
  rw [hfinal] at hrequest
  rcases requestFor_fits_iff.1 (h _ hrequest) with hlt | hno
  · omega
  · exact hmem hno

/-- **The step lemma.** A call whose length fits makes requests that fit. -/
theorem readerStep_fits (hfit : AllFit reader) {call : ReaderCall} (h : LengthFits reader call) :
    AllFit (readerStep reader call) := by
  have hsafeFit := isSafeToRead_allFit hfit
  cases call with
  | getAmount n => exact getAmount_fits hfit h
  | getUntilDelimiter delimiter =>
    unfold readerStep bufferedReaderGetUntilDelimiter
    dsimp only
    split
    · rename_i reader' hsafe
      rwa [hsafe] at hsafeFit
    · rename_i reader' hsafe
      obtain ⟨rfl, -⟩ := isSafeToRead_true hsafe
      exact getUntilDelimiterLoop_fits _ hfit h
  | getUntilEnd =>
    unfold readerStep bufferedReaderGetUntilEnd
    dsimp only
    split
    · rename_i reader' hsafe
      rw [hsafe] at hsafeFit
      split_ifs
      · exact hsafeFit
      · exact hsafeFit
    · rename_i reader' hsafe
      obtain ⟨rfl, -⟩ := isSafeToRead_true hsafe
      have hnext := getUntilEndLoop_fits (reader'.toCome + 1) hfit h
      split_ifs
      · exact hnext
      · exact hnext
  | invalidateOldData granted =>
    unfold readerStep bufferedReaderInvalidateOldData
    dsimp only
    split
    · rename_i reader' hsafe
      rwa [hsafe] at hsafeFit
    · rename_i reader' hsafe
      rw [hsafe] at hsafeFit
      have havail := getAvailableDataLength_allFit hsafeFit
      split
      · rename_i reader'' h0
        rwa [h0] at havail
      · rename_i reader'' k h1
        rw [h1] at havail
        split_ifs
        · exact havail
        · exact havail

/-- **What is read always lies in the buffer in every run whose lengths all fit.** An amount that is
read behind such a run has to fit. -/
theorem bufferRoom_of_along (incoming : List Incoming) (calls : List ReaderCall)
    (h : Along readerStep LengthFits (getBufferedReader incoming) calls) :
    BufferRoom incoming calls ∧
      ∀ amount, BufferRoom incoming (calls ++ [.getAmount amount]) ↔
        LengthFits (runFrom readerStep (getBufferedReader incoming) calls) (.getAmount amount) := by
  have hstart : AllFit (getBufferedReader incoming) := by
    intro request hmem
    cases hmem
  have hfit : BufferRoom incoming calls :=
    Along.invariant (I := AllFit) (fun _ _ hfit hlen => readerStep_fits hfit hlen) hstart h
  refine ⟨hfit, fun amount => ?_⟩
  unfold BufferRoom
  rw [runFrom_append]
  exact getAmount_fits_iff hfit

/-- The bytes of a WebSocket frame that announces 2^64 - 1 bytes of payload, and what
`read_raw_message` asks for to read it: header, extended length, mask and payload. -/
def hugeFrame : List Incoming :=
  [.bytes 0x82 [0xFF, 0xFF, 0xFF, 0xFF, 0xFF, 0xFF, 0xFF, 0xFF, 0xFF, 0xFF, 1, 2, 3, 4],
    .bytes 0x61 [0x62]]

def readHugeFrame : List ReaderCall :=
  [.getAmount 2, .getAmount 8, .getAmount 4, .getAmount 0xFFFFFFFFFFFFFFFF]

/-- For the payload the buffer of 14 bytes is reallocated to 13, and two bytes are read behind
the 14. -/
theorem hugeFrame_noRoom : ¬ BufferRoom hugeFrame readHugeFrame := by
  intro h
  have hlast := h ⟨14, 2 ^ 64 - 1, 13, true⟩ (by decide +kernel)
  exact absurd (hlast rfl).1 (by decide)

/-- A short message, and one of the largest announced length that still fits. -/
def readLargeFrame : List ReaderCall :=
  [.getAmount 2, .getAmount 8, .getAmount 4, .getAmount 0xFFFFFFFFFFFFFFF1]

theorem largeFrame_room : BufferRoom hugeFrame readLargeFrame ∧
    ∀ amount, BufferRoom hugeFrame (readLargeFrame ++ [.getAmount amount]) ↔
      LengthFits (runFrom readerStep (getBufferedReader hugeFrame) readLargeFrame)
        (.getAmount amount) :=
  bufferRoom_of_along hugeFrame readLargeFrame (by decide +kernel)

end SimpleServer.Utils
