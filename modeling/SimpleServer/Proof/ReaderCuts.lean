import SimpleServer.Proof.BufferRoom
import SimpleServer.Proof.Segmentation

/-!
# Calls of a reader and the cuts of its stream

A stream that has not ended is the bytes that are left of it; one that has ended answers
with the end, or with no bytes when everything is asked for. The calls of a buffered reader
are calls of such a stream (`streamCall`), which knows no buffer, no cursor and no cuts.

* `Delivers`: the reader stands where the stream stands.
* `delivers_step`: one call keeps this and gives the same result.
* `streamResults_consecutive`: what the calls of a stream hand out is its beginning.
* `reader_independentOfCut`: **the results of any calls are those of the stream**, however the
  network cuts it.
-/

namespace SimpleServer.Http

open Utils Lib

variable {reader : BufferedReader} {stream : Bytes}

/-! ## Results -/

/-- What a call returns; discarding old data returns nothing. -/
def readerResult (reader : BufferedReader) : ReaderCall → Option BufferedReadResult
  | .getAmount amount => some (bufferedReaderGetAmount reader amount.toNat).2
  | .getUntilDelimiter delimiter => some (bufferedReaderGetUntilDelimiter reader delimiter).2
  | .getUntilEnd => some (bufferedReaderGetUntilEnd reader).2
  | .invalidateOldData _ => none

/-- The results of a run. -/
def readerResults (reader : BufferedReader) (calls : List ReaderCall) :
    List (Option BufferedReadResult) :=
  outputs readerStep readerResult (fun _ => true) reader calls

/-- The bytes a successful call takes from the stream: what it hands out, and the delimiter it
was asked for. -/
def consumed : ReaderCall → Option BufferedReadResult → Bytes
  | .getUntilDelimiter delimiter, some (.ok bytes) => bytes ++ delimiter
  | _, some (.ok bytes) => bytes
  | _, _ => []

/-! ## The stream -/

/-- A call of a stream of which these bytes are left, or that has ended. -/
def streamCall : Option Bytes → ReaderCall → Option Bytes × Option BufferedReadResult
  | left, .invalidateOldData _ => (left, none)
  | none, .getUntilEnd => (none, some (.ok []))
  | none, _ => (none, some .eof)
  | some left, .getAmount amount =>
    if amount.toNat ≤ left.length then
      (some (left.drop amount.toNat), some (.ok (left.take amount.toNat)))
    else (none, some .eof)
  | some left, .getUntilDelimiter delimiter =>
    match scan delimiter left 0 with
    | some n => (some (left.drop n), some (.ok (left.take (n - delimiter.length))))
    | none => (none, some .eof)
  | some left, .getUntilEnd => (none, some (.ok left))

def streamStep (left : Option Bytes) (call : ReaderCall) : Option Bytes := (streamCall left call).1

def streamResult (left : Option Bytes) (call : ReaderCall) : Option BufferedReadResult :=
  (streamCall left call).2

/-- The results of a run on a stream. -/
def streamResults (left : Option Bytes) (calls : List ReaderCall) :
    List (Option BufferedReadResult) :=
  outputs streamStep streamResult (fun _ => true) left calls

/-- The search ends with the delimiter, of which `index` bytes were found before. -/
theorem scan_delimiter {delimiter left : Bytes} {index n : ℕ}
    (hindex : index < delimiter.length ∨ index = 0) (h : scan delimiter left index = some n) :
    ∃ before, delimiter.take index ++ left.take n = before ++ delimiter := by
  induction left generalizing index n with
  | nil => cases h
  | cons b rest ih =>
    unfold scan at h
    split_ifs at h with hbyte hlast
    · cases h
      rw [List.take_succ_cons, List.take_zero]
      by_cases hempty : index < delimiter.length
      · -- the last byte of the delimiter
        have hb : b = delimiter[index] := by rw [hbyte, List.getD_eq_getElem _ _ hempty]
        refine ⟨[], ?_⟩
        rw [hb, List.take_concat_get' delimiter index hempty, List.nil_append]
        exact List.take_of_length_le hlast
      · -- an empty delimiter
        have hnil : delimiter = [] := List.length_eq_zero_iff.1 (by omega)
        exact ⟨[b], by rw [hnil, List.take_nil, List.append_nil, List.nil_append]⟩
    · obtain ⟨m, hm, rfl⟩ := Option.map_eq_some_iff.1 h
      have hlt : index < delimiter.length := by omega
      have hb : b = delimiter[index] := by rw [hbyte, List.getD_eq_getElem _ _ hlt]
      obtain ⟨before, hbefore⟩ := ih (.inl (by omega)) hm
      refine ⟨before, ?_⟩
      rw [← hbefore, ← List.take_concat_get' delimiter index hlt, ← hb, List.take_succ_cons,
        List.append_assoc]
      rfl
    · -- the bytes found before belong to what is before the delimiter
      obtain ⟨m, hm, rfl⟩ := Option.map_eq_some_iff.1 h
      obtain ⟨before, hbefore⟩ := ih (.inr rfl) hm
      rw [List.take_zero, List.nil_append] at hbefore
      refine ⟨delimiter.take index ++ b :: before, ?_⟩
      rw [List.take_succ_cons, hbefore, List.append_assoc, List.cons_append]

theorem scan_take {delimiter left : Bytes} {n : ℕ} (h : scan delimiter left 0 = some n) :
    left.take (n - delimiter.length) ++ delimiter = left.take n := by
  obtain ⟨before, hbefore⟩ := scan_delimiter (.inr rfl) h
  rw [List.take_zero, List.nil_append] at hbefore
  have hlen := congrArg List.length hbefore
  rw [List.length_take, List.length_append, min_eq_left (scan_le h).2] at hlen
  have htake : left.take (n - delimiter.length) = before := by
    have hle : n - delimiter.length ≤ n := Nat.sub_le _ _
    rw [← min_eq_left hle, ← List.take_take, hbefore, List.take_append_of_le_length (by omega),
      List.take_of_length_le (by omega)]
  rw [htake, hbefore]

/-- One call takes bytes from the beginning of what is left. -/
theorem streamCall_consumed (left : Bytes) (call : ReaderCall) :
    ∃ rest, left = consumed call (streamResult (some left) call) ++ rest ∧
      (streamStep (some left) call = some rest ∨ streamStep (some left) call = none) := by
  unfold streamStep streamResult
  cases call with
  | invalidateOldData granted => exact ⟨left, rfl, .inl rfl⟩
  | getUntilEnd => exact ⟨[], (List.append_nil left).symm, .inr rfl⟩
  | getAmount amount =>
    unfold streamCall
    dsimp only
    by_cases hle : amount.toNat ≤ left.length
    · rw [if_pos hle]
      exact ⟨left.drop amount.toNat, (List.take_append_drop _ _).symm, .inl rfl⟩
    · rw [if_neg hle]
      exact ⟨left, rfl, .inr rfl⟩
  | getUntilDelimiter delimiter =>
    unfold streamCall
    dsimp only
    cases hscan : scan delimiter left 0 with
    | none => exact ⟨left, rfl, .inr rfl⟩
    | some n =>
      refine ⟨left.drop n, ?_, .inl rfl⟩
      dsimp only [consumed]
      rw [scan_take hscan, List.take_append_drop]

theorem consumed_ended (call : ReaderCall) : consumed call (streamResult none call) = [] := by
  cases call <;> rfl

theorem streamStep_ended (call : ReaderCall) : streamStep none call = none := by
  cases call <;> rfl

/-- What a run takes from a stream. -/
def consumedBy (calls : List ReaderCall) (results : List (Option BufferedReadResult)) : Bytes :=
  (List.zipWith consumed calls results).flatten

theorem consumedBy_cons (left : Option Bytes) (call : ReaderCall) (calls : List ReaderCall) :
    consumedBy (call :: calls) (streamResults left (call :: calls)) =
      consumed call (streamResult left call) ++
        consumedBy calls (streamResults (streamStep left call) calls) := rfl

theorem consumedBy_ended (calls : List ReaderCall) :
    consumedBy calls (streamResults none calls) = [] := by
  induction calls with
  | nil => rfl
  | cons call calls ih =>
    rw [consumedBy_cons, consumed_ended, streamStep_ended, ih, List.nil_append]

/-- **What the calls hand out is consecutive.** -/
theorem streamResults_consecutive (left : Bytes) (calls : List ReaderCall) :
    consumedBy calls (streamResults (some left) calls) <+: left := by
  induction calls generalizing left with
  | nil => exact List.nil_prefix
  | cons call calls ih =>
    obtain ⟨rest, hleft, hnext⟩ := streamCall_consumed left call
    rw [consumedBy_cons]
    rcases hnext with hnext | hnext
    · obtain ⟨more, hmore⟩ := ih rest
      rw [hnext]
      refine ⟨more, ?_⟩
      rw [List.append_assoc, hmore]
      exact hleft.symm
    · rw [hnext, consumedBy_ended, List.append_nil]
      exact ⟨rest, hleft.symm⟩

/-! ## The reader stands where the stream stands -/

/-- The reader has the bytes left that the stream has, or has come to the end as it has. -/
def Delivers (reader : BufferedReader) : Option Bytes → Prop
  | some left => reader.Steady ∧ reader.unread = left
  | none => reader.state = .closed

theorem isSafeToRead_closed (h : reader.state = .closed) :
    bufferedReaderIsSafeToRead reader = (reader, false) := by
  unfold bufferedReaderIsSafeToRead
  rw [if_pos (by rw [h]; decide)]

/-- A reader that has come to the end stays there. -/
theorem delivers_step_ended (h : reader.state = .closed) (call : ReaderCall) :
    (readerStep reader call).state = .closed ∧
      readerResult reader call = streamResult none call := by
  have hsafe := isSafeToRead_closed h
  cases call with
  | getAmount amount =>
    unfold readerStep readerResult bufferedReaderGetAmount
    rw [hsafe]
    dsimp only
    unfold notOpenResult
    rw [if_pos h]
    exact ⟨h, rfl⟩
  | getUntilDelimiter delimiter =>
    unfold readerStep readerResult bufferedReaderGetUntilDelimiter
    rw [hsafe]
    dsimp only
    unfold notOpenResult
    rw [if_pos h]
    exact ⟨h, rfl⟩
  | getUntilEnd =>
    unfold readerStep readerResult bufferedReaderGetUntilEnd
    rw [hsafe]
    dsimp only
    rw [if_pos h]
    exact ⟨h, rfl⟩
  | invalidateOldData granted =>
    unfold readerStep bufferedReaderInvalidateOldData
    rw [hsafe]
    exact ⟨h, rfl⟩

/-- Discarding old data keeps what is not consumed. -/
theorem invalidateOldData_steady (h : reader.Steady) (granted : Bool) :
    (bufferedReaderInvalidateOldData reader granted).Steady ∧
      (bufferedReaderInvalidateOldData reader granted).unread = reader.unread := by
  unfold bufferedReaderInvalidateOldData
  rw [isSafeToRead_eq h.state h.cursor]
  dsimp only
  rw [getAvailableDataLength_ready h.toReady]
  cases hleft : reader.data.buffer.length - reader.data.cursor with
  | zero =>
    have hnil : reader.data.buffer.drop reader.data.cursor = [] :=
      List.drop_of_length_le (by omega)
    refine ⟨⟨⟨h.state, Nat.le_refl 0⟩, h.onlyBytes⟩, ?_⟩
    unfold BufferedReader.unread
    rw [hnil]
    rfl
  | succ n =>
    cases granted with
    | true => exact ⟨⟨⟨h.state, Nat.zero_le _⟩, h.onlyBytes⟩, rfl⟩
    | false => exact ⟨h, rfl⟩

/-- **One call**: the reader and the stream give the same result and go on together. -/
theorem delivers_step {left : Option Bytes} (h : Delivers reader left) (call : ReaderCall) :
    Delivers (readerStep reader call) (streamStep left call) ∧
      readerResult reader call = streamResult left call := by
  cases left with
  | none =>
    rw [streamStep_ended]
    exact delivers_step_ended h call
  | some left =>
    obtain ⟨hsteady, rfl⟩ := h
    unfold streamStep streamResult
    cases call with
    | invalidateOldData granted =>
      exact ⟨invalidateOldData_steady hsteady granted, rfl⟩
    | getUntilEnd =>
      obtain ⟨hresult, hclosed⟩ := getUntilEnd_ok hsteady
      exact ⟨hclosed, congrArg some hresult⟩
    | getAmount amount =>
      unfold streamCall readerStep readerResult
      dsimp only
      by_cases hle : amount.toNat ≤ reader.unread.length
      · obtain ⟨reader', hread, hforward, -⟩ := getAmount_forward hsteady hle
        rw [if_pos hle, hread]
        exact ⟨⟨hforward.steady, hforward.unread hsteady.toReady⟩, rfl⟩
      · obtain ⟨hresult, hclosed⟩ := getAmount_short hsteady (not_le.1 hle)
        rw [if_neg hle, hresult]
        exact ⟨hclosed, rfl⟩
    | getUntilDelimiter delimiter =>
      unfold streamCall readerStep readerResult
      dsimp only
      cases hscan : scan delimiter reader.unread 0 with
      | some n =>
        obtain ⟨reader', hread, hforward, -⟩ := getUntilDelimiter_found hsteady hscan
        rw [hread]
        exact ⟨⟨hforward.steady, hforward.unread hsteady.toReady⟩, rfl⟩
      | none =>
        obtain ⟨hresult, hclosed⟩ := getUntilDelimiter_none hsteady hscan
        rw [hresult]
        exact ⟨hclosed, rfl⟩

/-- **A run** of calls gives the results of the stream. -/
theorem readerResults_eq {left : Option Bytes} (h : Delivers reader left)
    (calls : List ReaderCall) : readerResults reader calls = streamResults left calls := by
  have hall : Along readerStep (fun _ _ => True) reader calls :=
    along_iff.2 fun _ _ _ _ => trivial
  have hrun : outputs readerStep readerResult (fun _ => true) reader calls =
      outputs streamStep streamResult (fun _ => true) left (calls.filter fun _ => true) := by
    refine Along.simulation (R := Delivers) ?_ ?_ h hall
    · intro _ _ _ _ _ hskip
      cases hskip
    · intro _ _ call hdelivers _ _
      exact delivers_step hdelivers call
  rwa [List.filter_eq_self.2 fun _ _ => rfl] at hrun

theorem freshReader_delivers (cut : Cut stream) : Delivers (freshReader cut) (some stream) :=
  ⟨freshReader_steady cut, freshReader_unread cut⟩

/-- **The cut of a stream does not show**: two readers of the same stream give the same results
for the same calls, and what they hand out, with the delimiters, is the beginning of the
stream. A buffer grows as far as it has to here: what follows a `realloc` whose size wraps around is
no part of this result (see `Proof.BufferRoom`). -/
theorem reader_independentOfCut (stream : Bytes) (calls : List ReaderCall) :
    (∀ cut cut' : Cut stream,
      readerResults (freshReader cut) calls = readerResults (freshReader cut') calls) ∧
    ∀ cut : Cut stream,
      consumedBy calls (readerResults (freshReader cut) calls) <+: stream := by
  constructor
  · intro cut cut'
    rw [readerResults_eq (freshReader_delivers cut), readerResults_eq (freshReader_delivers cut')]
  · intro cut
    rw [readerResults_eq (freshReader_delivers cut)]
    exact streamResults_consecutive stream calls

end SimpleServer.Http
