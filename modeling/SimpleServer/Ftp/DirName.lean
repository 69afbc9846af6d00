import SimpleServer.Lib.Buffer
import SimpleServer.Ftp.FileOps

/-!
# The printed name of a directory (`get_dir_name_relative_to_ftp_root`)

The name is the part of a path behind the served folder. It is written into a buffer whose size
is computed before; a quotation mark is escaped by doubling it.

* `writeDirName_eq`: what is written is the name, and it fits.
* `unescapeQuotes_escape`: the escaped name can be read back.
-/

namespace SimpleServer.Ftp

open Lib Utils

def quote : UInt8 := 0x22

/-- The loop that copies the rest of `file` to `result` from `result_pos` on, with a doubled
quotation mark for each one. -/
def escapeLoop (result : Bytes) (resultPos : ℕ) : Bytes → Option Bytes
  | [] => Buffer.store result resultPos 0
  | c :: file =>
    if c = quote then
      (Buffer.store result resultPos quote).bind fun result =>
        (Buffer.store result (resultPos + 1) quote).bind fun result =>
          escapeLoop result (resultPos + 2) file
    else
      (Buffer.store result resultPos c).bind fun result => escapeLoop result (resultPos + 1) file

/-- Why there is no name. -/
inductive DirNameFailure
  | invariant1Violated
  | invariant2Violated
  /-- A byte was written outside of the buffer. -/
  | outsideBuffer
deriving Repr, DecidableEq

/-- `needed_size`, without the zero byte at the end. -/
def neededSize (state : FTPState) (file : Bytes) (escape : Bool) : ℕ :=
  if file.length = state.globalFolder.length then 1
  else if escape then (file.length - state.globalFolder.length) * 2
  else file.length - state.globalFolder.length

/-- The buffer that `get_dir_name_relative_to_ftp_root` returns; `malloc n` are the `n` bytes it
finds in a fresh one. -/
def writeDirName (malloc : (n : ℕ) → List.Vector UInt8 n) (state : FTPState) (file : Bytes)
    (escape : Bool) : Except DirNameFailure Bytes :=
  if state.globalFolder.getLast? = some slash ∨ file.getLast? = some slash then
    .error .invariant1Violated
  else if ¬ state.globalFolder.isPrefixOf file then .error .invariant2Violated
  else
    let needed := neededSize state file escape
    let result := (malloc (needed + 1)).toList
    let written :=
      if file.length = state.globalFolder.length then
        (Buffer.store result 0 slash).bind fun result => Buffer.store result needed 0
      else if escape then escapeLoop result 0 (file.drop state.globalFolder.length)
      else
        (Buffer.memcpy result 0 ((file.drop state.globalFolder.length).take needed)).bind
          fun result => Buffer.store result needed 0
    match written with
    | none => .error .outsideBuffer
    | some result => .ok result

/-- What a client does to read the name: every doubled quotation mark is reduced to one. -/
def unescapeQuotes : Bytes → Bytes
  | [] => []
  | [c] => [c]
  | c :: c' :: rest =>
    if c = quote ∧ c' = quote then quote :: unescapeQuotes rest
    else c :: unescapeQuotes (c' :: rest)

/-- A quotation mark twice, any other byte once. -/
def escapeByte (c : UInt8) : Bytes := if c = quote then [c, c] else [c]

/-! ## The text that is written -/

theorem escapeByte_length (c : UInt8) : (escapeByte c).length ≤ 2 := by
  unfold escapeByte
  split_ifs
  · simp
  · simp

theorem escape_length (name : Bytes) : (name.flatMap escapeByte).length ≤ name.length * 2 := by
  induction name with
  | nil => simp
  | cons c name ih =>
    have hc := escapeByte_length c
    rw [List.flatMap_cons, List.length_append, List.length_cons]
    omega

theorem unescapeQuotes_cons {c : UInt8} (hc : c ≠ quote) (rest : Bytes) :
    unescapeQuotes (c :: rest) = c :: unescapeQuotes rest := by
  cases rest with
  | nil => rfl
  | cons c' rest => rw [unescapeQuotes, if_neg fun h => hc h.1]

/-- **Escaping is undone.** -/
theorem unescapeQuotes_escape (name : Bytes) :
    unescapeQuotes (name.flatMap escapeByte) = name := by
  induction name with
  | nil => rfl
  | cons c name ih =>
    by_cases hc : c = quote
    · have hescape : escapeByte c = [quote, quote] := by rw [escapeByte, if_pos hc, hc]
      rw [List.flatMap_cons, hescape, List.cons_append, List.singleton_append, unescapeQuotes,
        if_pos ⟨rfl, rfl⟩, ih, hc]
    · have hescape : escapeByte c = [c] := by rw [escapeByte, if_neg hc]
      rw [List.flatMap_cons, hescape, List.singleton_append, unescapeQuotes_cons hc, ih]

/-- The loop appends the escaped rest and a zero byte, if there is room for both. -/
theorem escapeLoop_of_starts (file : Bytes) {text result : Bytes} (h : text <+: result)
    (hroom : text.length + (file.flatMap escapeByte).length < result.length) :
    ∃ written, escapeLoop result text.length file = some written ∧
      text ++ file.flatMap escapeByte ++ [0] <+: written ∧ written.length = result.length := by
  induction file generalizing text result with
  | nil =>
    rw [List.flatMap_nil, List.append_nil]
    exact Buffer.memcpy_of_starts text.length [0] h rfl (by simpa using hroom)
  | cons c file ih =>
    rw [List.flatMap_cons, List.length_append] at hroom
    by_cases hc : c = quote
    · have hescape : escapeByte c = [quote, quote] := by rw [escapeByte, if_pos hc, hc]
      rw [hescape, List.length_cons, List.length_singleton] at hroom
      obtain ⟨first, hfirst, hstart, hlen⟩ :=
        Buffer.memcpy_of_starts text.length [quote] h rfl (by rw [List.length_singleton]; omega)
      obtain ⟨second, hsecond, hstart', hlen'⟩ :=
        Buffer.memcpy_of_starts (text.length + 1) [quote] hstart (by simp)
          (by rw [List.length_singleton]; omega)
      have hpos : text.length + 2 = (text ++ [quote] ++ [quote]).length := by simp
      obtain ⟨written, hwritten, hprefix, hsize⟩ := ih hstart' (by rw [← hpos]; omega)
      refine ⟨written, ?_, ?_, by omega⟩
      · rw [escapeLoop, if_pos hc, Buffer.store, hfirst, Option.bind_some, Buffer.store, hsecond,
          Option.bind_some, hpos, hwritten]
      · rw [List.flatMap_cons, hescape]
        simpa using hprefix
    · have hescape : escapeByte c = [c] := by rw [escapeByte, if_neg hc]
      rw [hescape, List.length_singleton] at hroom
      obtain ⟨first, hfirst, hstart, hlen⟩ :=
        Buffer.memcpy_of_starts text.length [c] h rfl (by rw [List.length_singleton]; omega)
      have hpos : text.length + 1 = (text ++ [c]).length := by simp
      obtain ⟨written, hwritten, hprefix, hsize⟩ := ih hstart (by rw [← hpos]; omega)
      refine ⟨written, ?_, ?_, by omega⟩
      · rw [escapeLoop, if_neg hc, Buffer.store, hfirst, Option.bind_some, hpos, hwritten]
      · rw [List.flatMap_cons, hescape]
        simpa using hprefix

variable {state : FTPState} {file name : Bytes} {escape : Bool}

/-- A text and a zero byte behind it fit into a buffer of their size. -/
theorem writeText_of_room {result : Bytes} (text : Bytes)
    (hroom : result.length = text.length + 1) :
    ∃ written, ((Buffer.memcpy result 0 text).bind fun result =>
        Buffer.store result text.length 0) = some written ∧
      text ++ [0] <+: written ∧ written.length = result.length := by
  obtain ⟨first, hfirst, hstart, hlen⟩ :=
    Buffer.memcpy_of_starts 0 text (List.nil_prefix (l := result)) rfl (by omega)
  obtain ⟨written, hwritten, hstart', hlen'⟩ :=
    Buffer.memcpy_of_starts text.length [0] hstart (by simp)
      (by rw [List.length_singleton]; omega)
  refine ⟨written, ?_, hstart', by omega⟩
  rw [hfirst, Option.bind_some, Buffer.store, hwritten]

/-- **The name that is written** fits into the buffer and has a zero byte behind it. -/
theorem writeDirName_eq (malloc : (n : ℕ) → List.Vector UInt8 n)
    (h : getDirNameRelativeToFtpRoot state file escape = some name) :
    ∃ result, writeDirName malloc state file escape = .ok result ∧ name ++ [0] <+: result ∧
      result.length = neededSize state file escape + 1 := by
  unfold getDirNameRelativeToFtpRoot at h
  split_ifs at h with hslash hpre hsame hescape
  all_goals cases h
  all_goals unfold writeDirName
  all_goals rw [if_neg hslash, if_neg (not_not.2 hpre)]
  all_goals dsimp only
  all_goals have hsize := List.Vector.toList_length (malloc (neededSize state file escape + 1))
  all_goals have hdrop : (file.drop state.globalFolder.length).length =
      file.length - state.globalFolder.length := List.length_drop
  -- the served folder itself
  · have hneeded : neededSize state file escape = 1 := if_pos hsame
    rw [hneeded] at hsize ⊢
    obtain ⟨result, hresult, hstart, hlen⟩ :=
      writeText_of_room [slash] (by rw [hsize, List.length_singleton])
    rw [List.length_singleton] at hresult
    refine ⟨result, ?_, hstart, by omega⟩
    rw [if_pos hsame, Buffer.store, hresult]
  -- the escaped name of a folder below it
  · have hneeded : neededSize state file escape =
        (file.length - state.globalFolder.length) * 2 := by
      rw [neededSize, if_neg hsame, if_pos hescape]
    have hescaped := escape_length (file.drop state.globalFolder.length)
    obtain ⟨result, hresult, hstart, hlen⟩ := escapeLoop_of_starts
      (file.drop state.globalFolder.length)
      (List.nil_prefix (l := (malloc (neededSize state file escape + 1)).toList))
      (by rw [List.length_nil]; omega)
    rw [List.length_nil] at hresult
    refine ⟨result, ?_, hstart, by omega⟩
    rw [if_neg hsame, if_pos hescape, hresult]
  -- the plain one
  · have hneeded : neededSize state file escape =
        (file.drop state.globalFolder.length).length := by
      rw [neededSize, if_neg hsame, if_neg hescape, hdrop]
    obtain ⟨result, hresult, hstart, hlen⟩ :=
      writeText_of_room (file.drop state.globalFolder.length) (by rw [hsize, hneeded])
    rw [← hneeded] at hresult
    refine ⟨result, ?_, hstart, by omega⟩
    rw [if_neg hsame, if_neg hescape, List.take_of_length_le hneeded.ge, hresult]

end SimpleServer.Ftp
