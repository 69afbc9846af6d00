import SimpleServer.Utils.BufferedReader

/-!
# What a buffered reader delivers

A reader in good order is open and its cursor is inside the buffer (`Ready`). What it will
deliver is its unread part: the rest of the buffer and what arrives before the first
failure (`unread`). How the network cuts these bytes does not show.

* `getMoreDataExactLoop_ready`: a request for bytes that arrive appends them.
* `bufferedReaderGetAmount_ok`: bytes that are there are delivered and consumed.
* `bufferedReaderGetAmount_inv`: **nothing else is delivered.**
* `Reads`: a reader before and after some bytes were consumed.
-/

namespace SimpleServer.Utils

/-- The bytes that arrive before the first failure or the end. -/
def arriving : List Incoming → Bytes
  | .bytes first rest :: more => first :: rest ++ arriving more
  | _ => []

/-- The bytes that were not consumed yet. -/
def BufferedReader.unread (reader : BufferedReader) : Bytes :=
  reader.data.buffer.drop reader.data.cursor ++ arriving reader.incoming

/-- The reader is open and its cursor inside the buffer. -/
structure BufferedReader.Ready (reader : BufferedReader) : Prop where
  state : reader.state = .open
  cursor : reader.data.cursor ≤ reader.data.buffer.length

theorem arriving_leftOver (bs : Bytes) (more : List Incoming) :
    arriving (leftOver bs ++ more) = bs ++ arriving more := by
  cases bs <;> rfl

variable {reader reader' : BufferedReader} {amount fuel : ℕ}

/-- `reader'` has `bytes` more in its buffer than `reader`, which came from what arrives. -/
structure Appended (reader reader' : BufferedReader) (bytes : Bytes) : Prop where
  ready : reader'.Ready
  buffer : reader'.data.buffer = reader.data.buffer ++ bytes
  cursor : reader'.data.cursor = reader.data.cursor
  arriving : arriving reader.incoming = bytes ++ arriving reader'.incoming

theorem Appended.unread {bytes : Bytes} (h : Appended reader reader' bytes)
    (hready : reader.Ready) : reader'.unread = reader.unread := by
  unfold BufferedReader.unread
  rw [h.buffer, h.cursor, h.arriving, List.drop_append_of_le_length hready.cursor,
    List.append_assoc]

/-- One request delivers some of the bytes that arrive, or ends the stream. -/
theorem getMoreDataPartially_ready (h : reader.Ready) (amount : ℕ) :
    (arriving reader.incoming = [] ∧
      (bufferedReaderGetMoreDataPartially reader amount).1.state ≠ .open ∧
      (bufferedReaderGetMoreDataPartially reader amount).2 = 0) ∨
    ∃ bytes, Appended reader (bufferedReaderGetMoreDataPartially reader amount).1 bytes ∧
      bytes.length = (bufferedReaderGetMoreDataPartially reader amount).2 ∧
      bytes.length ≤ amount ∧ (0 < amount → 0 < bytes.length) := by
  unfold bufferedReaderGetMoreDataPartially
  rw [isSafeToRead_eq h.state h.cursor]
  dsimp only
  split
  · rename_i rest hin
    exact .inl ⟨by rw [hin]; rfl, nofun, rfl⟩
  · rename_i hin
    exact .inl ⟨by rw [hin]; rfl, nofun, rfl⟩
  · rename_i rest hin
    exact .inl ⟨by rw [hin]; rfl, nofun, rfl⟩
  · rename_i first arrived rest hin
    right
    refine ⟨(first :: arrived).take amount, ⟨⟨rfl, ?_⟩, rfl, rfl, ?_⟩, rfl, ?_, ?_⟩
    · have hcursor := h.cursor
      simp only [List.length_append]
      omega
    · rw [hin, arriving_leftOver, ← List.append_assoc, List.take_append_drop]
      rfl
    · simp
    · intro hpos
      simp only [List.length_take, List.length_cons]
      omega

theorem Appended.trans {reader'' : BufferedReader} {bytes bytes' : Bytes}
    (h : Appended reader reader' bytes) (h' : Appended reader' reader'' bytes') :
    Appended reader reader'' (bytes ++ bytes') where
  ready := h'.ready
  buffer := by rw [h'.buffer, h.buffer, List.append_assoc]
  cursor := h'.cursor.trans h.cursor
  arriving := by rw [h.arriving, h'.arriving, List.append_assoc]

theorem arriving_length_le (reader : BufferedReader) :
    (arriving reader.incoming).length ≤ reader.toCome := by
  unfold BufferedReader.toCome
  induction reader.incoming with
  | nil => exact le_rfl
  | cons i more ih =>
    cases i with
    | bytes first rest =>
      simp only [arriving, List.length_append, List.length_cons, List.map_cons, List.sum_cons,
        Incoming.count]
      omega
    | noMemory => exact Nat.zero_le _
    | failure => exact Nat.zero_le _

/-- **A request for an exact amount** appends it if it arrives, and ends the stream if not. -/
theorem getMoreDataExactLoop_ready (h : reader.Ready) (amount : ℕ) (hpos : 0 < amount)
    (hfuel : (arriving reader.incoming).length < fuel) :
    (amount ≤ (arriving reader.incoming).length ∧
      Appended reader (getMoreDataExactLoop fuel reader amount)
        ((arriving reader.incoming).take amount)) ∨
    ((arriving reader.incoming).length < amount ∧
      (getMoreDataExactLoop fuel reader amount).state ≠ .open) := by
  induction fuel generalizing reader amount with
  | zero => exact absurd hfuel (Nat.not_lt_zero _)
  | succ fuel ih =>
    unfold getMoreDataExactLoop
    rw [if_neg (not_not.2 h.state)]
    dsimp only
    rcases getMoreDataPartially_ready h amount with ⟨hnone, hstate, hzero⟩ |
      ⟨bytes, happ, hlen, hle, hsome⟩
    · right
      have hlt : (arriving reader.incoming).length < amount := by rw [hnone]; exact hpos
      rw [hzero, if_neg (Nat.not_lt_zero _), if_neg (by omega),
        getMoreDataExactLoop_stopped _ _ hstate]
      exact ⟨hlt, hstate⟩
    · rw [← hlen, if_neg (not_lt.2 hle)]
      have harr := congrArg List.length happ.arriving
      rw [List.length_append] at harr
      by_cases hall : bytes.length = amount
      · left
        rw [if_pos hall]
        refine ⟨by omega, ?_⟩
        rw [happ.arriving, List.take_append_of_le_length hall.ge, List.take_of_length_le hall.le]
        exact happ
      · rw [if_neg hall]
        have hbytes := hsome hpos
        rcases ih happ.ready (amount - bytes.length) (by omega) (by omega) with
          ⟨hrest, happ'⟩ | ⟨hshort, hstate⟩
        · left
          refine ⟨by omega, ?_⟩
          have htake : (arriving reader.incoming).take amount = bytes ++
              (arriving (bufferedReaderGetMoreDataPartially reader amount).1.incoming).take
                (amount - bytes.length) := by
            rw [happ.arriving, List.take_append, List.take_of_length_le hle]
          rw [htake]
          exact happ.trans happ'
        · exact .inr ⟨by omega, hstate⟩

/-! ## Reading an amount -/

/-- A reader that is not in good order delivers nothing. -/
theorem getAmount_notReady (h : ¬ reader.Ready) (bytes : Bytes) :
    (bufferedReaderGetAmount reader amount).2 ≠ .ok bytes := by
  unfold bufferedReaderGetAmount
  split
  · unfold notOpenResult
    split_ifs <;> exact nofun
  · rename_i hsafe
    obtain ⟨rfl, hopen, hcursor⟩ := isSafeToRead_true hsafe
    exact absurd ⟨hopen, hcursor⟩ h

theorem getAmount_ready (h : reader.Ready) :
    bufferedReaderGetAmount reader amount =
      let reader := bufferedReaderGetDataUntil reader amount
      if reader.state ≠ .open then
        (reader, notOpenResult reader
          "Failed to get more data in read amount, stream not open anymore")
      else
        match getAvailableDataLength reader with
        | (reader, size) =>
          if size < amount then (reader, .err "Failed to get more data in get amount")
          else
            ({ reader with data := { reader.data with cursor := reader.data.cursor + amount } },
              .ok ((reader.data.buffer.drop reader.data.cursor).take amount)) := by
  unfold bufferedReaderGetAmount
  rw [isSafeToRead_eq h.state h.cursor]

theorem getAvailableDataLength_ready (h : reader.Ready) :
    getAvailableDataLength reader =
      (reader, reader.data.buffer.length - reader.data.cursor) := by
  unfold getAvailableDataLength
  rw [isSafeToRead_eq h.state h.cursor]

/-- What the reader holds when it has looked for `amount` bytes. -/
theorem getDataUntil_ready (h : reader.Ready) (amount : ℕ) :
    (amount ≤ reader.unread.length ∧
      ∃ bytes, Appended reader (bufferedReaderGetDataUntil reader amount) bytes ∧
        amount ≤ (bufferedReaderGetDataUntil reader amount).data.buffer.length -
          (bufferedReaderGetDataUntil reader amount).data.cursor) ∨
    (reader.unread.length < amount ∧
      (bufferedReaderGetDataUntil reader amount).state ≠ .open) := by
  have hunread : reader.unread.length = reader.data.buffer.length - reader.data.cursor +
      (arriving reader.incoming).length := by
    unfold BufferedReader.unread
    rw [List.length_append, List.length_drop]
  unfold bufferedReaderGetDataUntil
  rw [getAvailableDataLength_ready h]
  dsimp only
  by_cases henough : reader.data.buffer.length - reader.data.cursor ≥ amount
  · rw [if_pos henough]
    exact .inl ⟨by omega, [], ⟨h, by simp, rfl, rfl⟩, henough⟩
  · rw [if_neg henough]
    have hle := arriving_length_le reader
    rcases getMoreDataExactLoop_ready h
      (amount - (reader.data.buffer.length - reader.data.cursor)) (by omega)
      (Nat.lt_succ_of_le hle) with ⟨hthere, happ⟩ | ⟨hshort, hstate⟩
    · refine .inl ⟨by omega, _, happ, ?_⟩
      have hcursor := h.cursor
      unfold bufferedReaderGetMoreDataExact
      rw [happ.buffer, happ.cursor, List.length_append, List.length_take]
      omega
    · exact .inr ⟨by omega, hstate⟩

/-- **Bytes that are there are delivered**, and the reader goes on behind them. -/
theorem bufferedReaderGetAmount_ok (h : reader.Ready) (hamount : amount ≤ reader.unread.length) :
    ∃ reader', bufferedReaderGetAmount reader amount = (reader', .ok (reader.unread.take amount)) ∧
      reader'.Ready ∧ reader'.unread = reader.unread.drop amount := by
  rw [getAmount_ready h]
  dsimp only
  rcases getDataUntil_ready h amount with ⟨-, bytes, happ, henough⟩ | ⟨hshort, -⟩
  · have hready := happ.ready
    have hsame := happ.unread h
    rw [if_neg (not_not.2 hready.state), getAvailableDataLength_ready hready]
    dsimp only
    rw [if_neg (not_lt.2 henough)]
    have hlen : amount ≤ ((bufferedReaderGetDataUntil reader amount).data.buffer.drop
        (bufferedReaderGetDataUntil reader amount).data.cursor).length := by
      rwa [List.length_drop]
    have htake : reader.unread.take amount =
        ((bufferedReaderGetDataUntil reader amount).data.buffer.drop
          (bufferedReaderGetDataUntil reader amount).data.cursor).take amount := by
      rw [← hsame, BufferedReader.unread, List.take_append_of_le_length hlen]
    rw [htake]
    refine ⟨_, rfl, ⟨hready.state, ?_⟩, ?_⟩
    · have hcursor := hready.cursor
      dsimp only
      omega
    · rw [← hsame]
      unfold BufferedReader.unread
      dsimp only
      rw [List.drop_append_of_le_length hlen, List.drop_drop]
  · omega

theorem bufferedReaderGetAmount_append {bytes rest : Bytes} (h : reader.Ready)
    (hunread : reader.unread = bytes ++ rest) (hlen : bytes.length = amount) :
    ∃ reader', bufferedReaderGetAmount reader amount = (reader', .ok bytes) ∧ reader'.Ready ∧
      reader'.unread = rest := by
  have hamount : amount ≤ reader.unread.length := by
    rw [hunread, List.length_append]
    omega
  obtain ⟨reader', hread, hready, hrest⟩ := bufferedReaderGetAmount_ok h hamount
  rw [hunread, ← hlen, List.take_left] at hread
  rw [hunread, ← hlen, List.drop_left] at hrest
  rw [hlen] at hread
  exact ⟨reader', hread, hready, hrest⟩

/-- **Nothing else is delivered.** -/
theorem bufferedReaderGetAmount_inv {bytes : Bytes}
    (hread : bufferedReaderGetAmount reader amount = (reader', .ok bytes)) :
    reader.Ready ∧ amount ≤ reader.unread.length ∧ bytes = reader.unread.take amount ∧
      reader'.Ready ∧ reader'.unread = reader.unread.drop amount := by
  by_cases h : reader.Ready
  · by_cases hamount : amount ≤ reader.unread.length
    · obtain ⟨r, hr, hready, hunread⟩ := bufferedReaderGetAmount_ok h hamount
      rw [hr] at hread
      cases hread
      exact ⟨h, hamount, rfl, hready, hunread⟩
    · rw [getAmount_ready h] at hread
      dsimp only at hread
      rcases getDataUntil_ready h amount with ⟨hle, -⟩ | ⟨-, hstate⟩
      · exact absurd hle hamount
      · rw [if_pos hstate] at hread
        unfold notOpenResult at hread
        split_ifs at hread <;> cases hread
  · exact absurd (congrArg Prod.snd hread) (getAmount_notReady h bytes)

/-- `reader'` is `reader` after these bytes were consumed. -/
structure Reads (reader : BufferedReader) (bytes : Bytes) (reader' : BufferedReader) : Prop where
  ready : reader.Ready
  ready' : reader'.Ready
  unread : reader.unread = bytes ++ reader'.unread

theorem Reads.refl (h : reader.Ready) : Reads reader [] reader := ⟨h, h, rfl⟩

theorem Reads.trans {reader'' : BufferedReader} {bytes bytes' : Bytes}
    (h : Reads reader bytes reader') (h' : Reads reader' bytes' reader'') :
    Reads reader (bytes ++ bytes') reader'' :=
  ⟨h.ready, h'.ready', by rw [h.unread, h'.unread, List.append_assoc]⟩

theorem Reads.drop {bytes : Bytes} (h : Reads reader bytes reader') :
    reader'.unread = reader.unread.drop bytes.length := by
  rw [h.unread, List.drop_left]

theorem Reads.take {bytes : Bytes} (h : Reads reader bytes reader') :
    bytes = reader.unread.take bytes.length := by
  rw [h.unread, List.take_left]

theorem getAmount_reads {bytes : Bytes}
    (hread : bufferedReaderGetAmount reader amount = (reader', .ok bytes)) :
    Reads reader bytes reader' ∧ bytes.length = amount := by
  obtain ⟨hready, hle, rfl, hready', hrest⟩ := bufferedReaderGetAmount_inv hread
  refine ⟨⟨hready, hready', ?_⟩, ?_⟩
  · rw [hrest, List.take_append_drop]
  · rw [List.length_take]
    omega

end SimpleServer.Utils
