import SimpleServer.Lib.Occurrence
import SimpleServer.Utils.LineSpec

/-!
# The search for a delimiter and its first occurrence

After a byte that does not continue the delimiter, the search starts again behind that byte,
even where the byte could itself be the start of the delimiter. It finds the first occurrence
if and only if the bytes before it are attempts that failed so.

* `scan_attempts`, `scan_of_attempts`: what the search has passed when it finds something.
* `findsFirst_iff`: when the first occurrence is found.
-/

namespace SimpleServer.Utils

open Lib

variable {delimiter stream line : Bytes} {index n : ℕ} {reader : BufferedReader}

/-! ## What the search passes -/

/-- What is found is a delimiter behind failed attempts. -/
theorem scan_attempts (hindex : index < delimiter.length)
    (h : scan delimiter stream index = some n) :
    ∃ line after, FailedAttempts delimiter line ∧
      delimiter.take index ++ stream = line ++ (delimiter ++ after) ∧
      index + n = line.length + delimiter.length := by
  induction stream generalizing index n with
  | nil => cases h
  | cons b rest ih =>
    unfold scan at h
    rw [List.getD_eq_getElem _ _ hindex] at h
    have hlonger : b = delimiter[index] →
        delimiter.take index ++ b :: rest = delimiter.take (index + 1) ++ rest := by
      rintro rfl
      rw [← List.take_append_getElem hindex, List.append_assoc, List.singleton_append]
    split_ifs at h with hfits hlast
    · -- the last byte of the delimiter
      cases h
      refine ⟨[], rest, .nil, ?_, ?_⟩
      · rw [hlonger hfits, List.take_of_length_le hlast, List.nil_append]
      · rw [List.length_nil]
        omega
    · -- one byte more of it
      obtain ⟨m, hm, rfl⟩ := Option.map_eq_some_iff.1 h
      obtain ⟨line, after, hline, hstream, hlength⟩ := ih (by omega) hm
      refine ⟨line, after, hline, ?_, by omega⟩
      rw [hlonger hfits, hstream]
    · -- a failed attempt
      obtain ⟨m, hm, rfl⟩ := Option.map_eq_some_iff.1 h
      obtain ⟨line, after, hline, hstream, hlength⟩ := ih (by omega) hm
      rw [List.take_zero, List.nil_append] at hstream
      refine ⟨delimiter.take index ++ b :: line, after, ?_, ?_, ?_⟩
      · apply FailedAttempts.attempt index b line hindex
        · rw [List.getElem?_eq_getElem hindex]
          intro heq
          exact hfits (Option.some.inj heq).symm
        · exact hline
      · rw [hstream, List.append_assoc, List.cons_append]
      · rw [List.length_append, List.length_take, List.length_cons]
        omega

/-- A beginning of the delimiter is passed byte by byte. -/
theorem scan_beginning (stream : Bytes) (found : ℕ) (hfound : found < delimiter.length) :
    scan delimiter (delimiter.take found ++ stream) 0 =
      (scan delimiter stream found).map (· + found) := by
  induction found generalizing stream with
  | zero => simp
  | succ found ih =>
    have hlt : found < delimiter.length := by omega
    rw [← List.take_append_getElem hlt, List.append_assoc, List.singleton_append, ih _ hlt]
    conv_lhs => unfold scan
    rw [List.getD_eq_getElem _ _ hlt, if_pos rfl, if_neg (by omega), Option.map_map]
    congr 1
    funext m
    simp only [Function.comp_apply]
    omega

/-- Behind failed attempts the delimiter is found. -/
theorem scan_of_attempts (hne : delimiter ≠ []) (hline : FailedAttempts delimiter line)
    (after : Bytes) :
    scan delimiter (line ++ (delimiter ++ after)) 0 = some (line.length + delimiter.length) := by
  have hpos : 0 < delimiter.length := List.length_pos_iff.2 hne
  induction hline with
  | nil =>
    have hlast : delimiter.length - 1 < delimiter.length := by omega
    have hsplit : delimiter =
        delimiter.take (delimiter.length - 1) ++ [delimiter[delimiter.length - 1]] := by
      rw [List.take_append_getElem hlast, List.take_of_length_le (by omega)]
    have hfound := scan_beginning (delimiter[delimiter.length - 1] :: after) _ hlast
    conv_rhs at hfound => unfold scan
    rw [List.getD_eq_getElem _ _ hlast, if_pos rfl, if_pos (by omega), ← List.singleton_append,
      ← List.append_assoc, ← hsplit] at hfound
    rw [List.nil_append, hfound, List.length_nil, Option.map_some]
    congr 1
    omega
  | attempt found b rest hfound hother _ ih =>
    rw [List.append_assoc, List.cons_append, scan_beginning _ found hfound]
    conv_lhs => unfold scan
    have hfails : ¬ b = delimiter.getD found 0 := by
      rintro rfl
      apply hother
      rw [List.getD_eq_getElem _ _ hfound, List.getElem?_eq_getElem hfound]
    rw [if_neg hfails, ih, Option.map_some, Option.map_some, List.length_append, List.length_take,
      List.length_cons]
    congr 1
    omega

/-! ## The first occurrence -/

/-- The search succeeds exactly when the delimiter comes, delivers what is before its first
occurrence, and leaves the cursor behind it. -/
structure FindsFirst (reader : BufferedReader) (delimiter : Bytes) : Prop where
  ok_iff : (∃ line, (bufferedReaderGetUntilDelimiter reader delimiter).2 = .ok line) ↔
    delimiter <:+: reader.unread
  first : ∀ line, (bufferedReaderGetUntilDelimiter reader delimiter).2 = .ok line →
    FirstAt delimiter reader.unread line
  cursor : ∀ line, (bufferedReaderGetUntilDelimiter reader delimiter).2 = .ok line →
    (bufferedReaderGetUntilDelimiter reader delimiter).1.data.cursor =
      reader.data.cursor + (line.length + delimiter.length)

/-- What stands before the first occurrence of the delimiter, if it occurs, is failed attempts. -/
def OnlyFailsBefore (delimiter stream : Bytes) : Prop :=
  ∀ line, FirstAt delimiter stream line → FailedAttempts delimiter line

/-- What the search delivers, and where it stops. -/
theorem getUntilDelimiter_ok (h : reader.Steady) (hne : delimiter ≠ [])
    (hok : (bufferedReaderGetUntilDelimiter reader delimiter).2 = .ok line) :
    FailedAttempts delimiter line ∧ (∃ after, reader.unread = line ++ (delimiter ++ after)) ∧
      (bufferedReaderGetUntilDelimiter reader delimiter).1.data.cursor =
        reader.data.cursor + (line.length + delimiter.length) := by
  cases hscan : scan delimiter reader.unread 0 with
  | none =>
    rw [(getUntilDelimiter_none h hscan).1] at hok
    cases hok
  | some n =>
    obtain ⟨reader', hfound, hforward, -⟩ := getUntilDelimiter_found h hscan
    obtain ⟨line', after, hline', hunread, hlength⟩ :=
      scan_attempts (List.length_pos_iff.2 hne) hscan
    rw [List.take_zero, List.nil_append] at hunread
    rw [hfound] at hok ⊢
    have hsame : reader.unread.take (n - delimiter.length) = line' := by
      rw [hunread]
      apply List.take_left'
      omega
    have hline : line' = line := by
      rw [hsame] at hok
      exact BufferedReadResult.ok.inj hok
    subst hline
    refine ⟨hline', ⟨after, hunread⟩, ?_⟩
    rw [hforward.cursor]
    omega

/-- **When the first occurrence of a delimiter is found.** -/
theorem findsFirst_iff (h : reader.Steady) (hne : delimiter ≠ []) :
    FindsFirst reader delimiter ↔ OnlyFailsBefore delimiter reader.unread := by
  constructor
  · intro hfinds line hline
    obtain ⟨line', hok⟩ := hfinds.ok_iff.2 hline.infix
    have hsame := (hfinds.first line' hok).unique hline
    subst hsame
    exact (getUntilDelimiter_ok h hne hok).1
  · intro hattempts
    -- a delimiter that comes is found where it occurs first
    have hfirst : ∀ line, FirstAt delimiter reader.unread line →
        (bufferedReaderGetUntilDelimiter reader delimiter).2 = .ok line := by
      intro line hline
      obtain ⟨after, hunread⟩ := hline.occurs
      have hscan := scan_of_attempts hne (hattempts line hline) after
      rw [← hunread] at hscan
      obtain ⟨reader', hfound, -, -⟩ := getUntilDelimiter_found h hscan
      rw [hfound, Nat.add_sub_cancel, hunread, List.take_left]
    have hinfix : ∀ line, (bufferedReaderGetUntilDelimiter reader delimiter).2 = .ok line →
        delimiter <:+: reader.unread := by
      intro line hok
      obtain ⟨-, ⟨after, hunread⟩, -⟩ := getUntilDelimiter_ok h hne hok
      exact ⟨line, after, by rw [hunread, List.append_assoc]⟩
    refine ⟨⟨?_, ?_⟩, ?_, ?_⟩
    · rintro ⟨line, hok⟩
      exact hinfix line hok
    · intro hoccurs
      obtain ⟨line, hline⟩ := exists_firstAt hoccurs
      exact ⟨line, hfirst line hline⟩
    · intro line hok
      obtain ⟨line', hline'⟩ := exists_firstAt ( hinfix line hok)
      have hsame := BufferedReadResult.ok.inj ((hfirst line' hline').symm.trans hok)
      rwa [← hsame]
    · intro line hok
      exact (getUntilDelimiter_ok h hne hok).2.2

/-- A reader to which some bytes come at once. -/
theorem oneRead_steady (b : UInt8) (bytes : Bytes) :
    (getBufferedReader [.bytes b bytes]).Steady := by
  refine ⟨⟨rfl, Nat.le_refl 0⟩, ?_⟩
  intro i hi
  exact ⟨b, bytes, List.mem_singleton.1 hi⟩

/-- A line without a carriage return before its end. -/
theorem findsFirst_line :
    FindsFirst (getBufferedReader [.bytes 0x51 [0x55, 0x49, 0x54, 0x0d, 0x0a]]) [0x0d, 0x0a] := by
  rw [findsFirst_iff (oneRead_steady _ _) (by decide)]
  intro line hline
  have hfirst : FirstAt [0x0d, 0x0a] (getBufferedReader
      [.bytes 0x51 [0x55, 0x49, 0x54, 0x0d, 0x0a]]).unread [0x51, 0x55, 0x49, 0x54] :=
    firstAt_of_not_mem [0x51, 0x55, 0x49, 0x54] (by decide)
  rw [hline.unique hfirst]
  exact failedAttempts_of_not_mem (by decide)

/-- Two carriage returns before a line feed: the second one starts the delimiter. -/
theorem secondReturn_missed :
    ¬ FindsFirst (getBufferedReader [.bytes 0x0d [0x0d, 0x0a]]) [0x0d, 0x0a] := by
  intro h
  have hend : (bufferedReaderGetUntilDelimiter (getBufferedReader [.bytes 0x0d [0x0d, 0x0a]])
      [0x0d, 0x0a]).2 = .eof := by decide
  obtain ⟨line, hok⟩ := h.ok_iff.2 ⟨[0x0d], [], rfl⟩
  rw [hend] at hok
  cases hok

end SimpleServer.Utils
