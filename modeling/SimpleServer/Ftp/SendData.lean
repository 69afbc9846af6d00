import SimpleServer.Lib.Decimal
import SimpleServer.Generic.Send
import SimpleServer.Ftp.State

/-!
# The data of RETR and LIST (`ftp/file_ops.c`)

A file is sent in chunks, a folder entry by entry, and after each of them the control thread
gets a chance to look for an abort. `SendProgress` remembers how far it is.

* `sendLoop_rawData`, `sendLoop_multipleFiles`: the loop sends the pieces in order and ends.
* `sendLoop_record`, `sendLoop_file`: the data for which it sends nothing.
* `eplfLine_isLine`: an entry is one line.
-/

namespace SimpleServer.Ftp

open Lib Generic

/-! ## Files -/

structure Owners where
  user : ℕ
  group : ℕ
deriving Repr, DecidableEq

structure UniqueIdentifier where
  dev : ℕ
  ino : ℕ
deriving Repr, DecidableEq

structure FileWithMetadata where
  mode : ℕ
  linkAmount : ℕ
  owners : Owners
  size : ℕ
  /-- In seconds. -/
  lastMod : ℕ
  fileName : Bytes
  identifier : UniqueIdentifier
deriving Repr, DecidableEq

structure MaxSize where
  link : ℕ
  user : ℕ
  group : ℕ
  size : ℕ
deriving Repr, DecidableEq

inductive FileSendFormat
  | ls
  | eplf
deriving Repr, DecidableEq

/-- `alloc_default_options`; nothing changes the format of a session. -/
def defaultSendFormat : FileSendFormat := .eplf

inductive SendData
  | file (file : FileWithMetadata) (format : FileSendFormat)
  | multipleFiles (files : List FileWithMetadata) (sizes : MaxSize) (format : FileSendFormat)
  | rawData (data : Bytes)
deriving Repr, DecidableEq

/-! ## Lines -/

/-- `S_IFMT`. -/
def formatMask : ℕ := 0o170000

/-- `S_ISDIR`. -/
def isDirMode (mode : ℕ) : Bool := mode &&& formatMask = 0o040000

def getTypeFromMode (mode : ℕ) : UInt8 :=
  if mode &&& formatMask = 0o100000 then 0x2D
  else if mode &&& formatMask = 0o060000 then 0x62
  else if mode &&& formatMask = 0o020000 then 0x63
  else if mode &&& formatMask = 0o040000 then 0x64
  else if mode &&& formatMask = 0o010000 then 0x70
  else if mode &&& formatMask = 0o120000 then 0x6C
  else if mode &&& formatMask = 0o140000 then 0x73
  else 0x3F

structure OnePermission where
  read : Bool
  write : Bool
  execute : Bool

/-- The permissions of the user, the group and the others, for `i` from 0 to 2. -/
def permissionFromMode (mode i : ℕ) : OnePermission :=
  let value := (mode >>> ((2 - i) * 3)) &&& 0b111
  ⟨value &&& 0b100 ≠ 0, value &&& 0b010 ≠ 0, value &&& 0b001 ≠ 0⟩

def permissionText (permission : OnePermission) : Bytes :=
  [if permission.read then 0x72 else 0x2D, if permission.write then 0x77 else 0x2D,
    if permission.execute then 0x78 else 0x2D]

/-- `"%c%.*s%.*s%.*s"` with the permissions. -/
def modeText (mode : ℕ) : Bytes :=
  getTypeFromMode mode :: (permissionText (permissionFromMode mode 0) ++
    permissionText (permissionFromMode mode 1) ++ permissionText (permissionFromMode mode 2))

/-- The facts about a file. -/
def eplfFacts (file : FileWithMetadata) : Bytes :=
  (if isDirMode file.mode then ascii "/,"
    else ascii "r," ++ ascii "s" ++ decimalText file.size ++ ascii ",") ++
  ascii "m" ++ decimalText file.lastMod ++ ascii " ," ++
  ascii "i" ++ decimalText file.identifier.dev ++ ascii "." ++ decimalText file.identifier.ino ++
  ascii "," ++
  -- not compliant with the specification, but many clients display it
  ascii "up" ++ modeText file.mode

/-- `format_file_line_in_eplf_format`. -/
def eplfLine (file : FileWithMetadata) : Bytes :=
  ascii "+" ++ eplfFacts file ++ ascii "\t" ++ file.fileName ++ [0x0D, 0x0A]

/-- `"%*lu"`: filled up with blanks to a width. -/
def padded (width : ℕ) (text : Bytes) : Bytes :=
  List.replicate (width - text.length) 0x20 ++ text

/-- `"%d"` for an unsigned value of 32 bits. -/
def signedText (n : ℕ) : Bytes :=
  if n < 2 ^ 31 then decimalText n else ascii "-" ++ decimalText (2 ^ 32 - n)

/-- `format_file_line_in_ls_format`; `dateString` is `get_date_string` with `TimeFormatFTP`. -/
def lsLine (dateString : ℕ → Option Bytes) (file : FileWithMetadata) (sizes : MaxSize) :
    Option Bytes :=
  (dateString file.lastMod).map fun date =>
    modeText file.mode ++
      ascii "    " ++ padded sizes.link (decimalText file.linkAmount) ++
      ascii "    " ++ padded sizes.user (signedText file.owners.user) ++
      ascii "    " ++ padded sizes.group (signedText file.owners.group) ++
      ascii "    " ++ padded sizes.size (decimalText file.size) ++ ascii " " ++ date ++
      ascii " " ++ file.fileName ++ [0x0A]

def formatFileLine (dateString : ℕ → Option Bytes) (file : FileWithMetadata) (sizes : MaxSize) :
    FileSendFormat → Option Bytes
  | .ls => lsLine dateString file sizes
  | .eplf => some (eplfLine file)

/-! ## Progress -/

structure SendProgress where
  finished : Bool
  totalCount : ℕ
  sentCount : ℕ
deriving Repr, DecidableEq

def setupSendProgress (data : SendData) (sendMode : SendMode) : SendProgress :=
  let originalDataCount :=
    match data with
    | .file _ _ => 1
    | .multipleFiles files _ _ => files.length
    | .rawData data => data.length
  -- the count for records is not implemented
  let actualCount :=
    match sendMode with
    | .streamBinaryFile => originalDataCount
    | .streamBinaryRecord => 0
    | .unsupported => 0
  ⟨false, actualCount, 0⟩

/-- `SEND_CHUNK_SIZE`. -/
def sendChunkSize : ℕ := 0xFF

/-- The case of `send_data_to_send` for a folder. -/
def sendNextFile (dateString : ℕ → Option Bytes) (files : List FileWithMetadata) (sizes : MaxSize)
    (format : FileSendFormat) (progress : SendProgress) (connection : Connection) :
    Bool × SendProgress × Connection :=
  match files[progress.sentCount]?.bind fun file => formatFileLine dateString file sizes format with
  | none => (false, progress, connection)
  | some line =>
    match sendDataToConnection connection line with
    | (connection, false) => (false, progress, connection)
    | (connection, true) =>
      let sentCount := progress.sentCount + 1
      (true, ⟨decide (sentCount ≥ progress.totalCount), progress.totalCount, sentCount⟩,
        connection)

/-- The case of `send_data_to_send` for a file. -/
def sendNextChunk (data : Bytes) (progress : SendProgress) (connection : Connection) :
    Bool × SendProgress × Connection :=
  let offset := progress.sentCount
  let sendLength :=
    if offset + sendChunkSize ≥ progress.totalCount then progress.totalCount - offset
    else sendChunkSize
  match sendDataToConnection connection ((data.drop offset).take sendLength) with
  | (connection, false) => (false, progress, connection)
  -- that all is sent is only noticed in the next call
  | (connection, true) =>
    (true, { progress with sentCount := progress.sentCount + sendLength }, connection)

def sendDataToSend (dateString : ℕ → Option Bytes) (data : SendData) (sendMode : SendMode)
    (progress : SendProgress) (connection : Connection) : Bool × SendProgress × Connection :=
  if progress.finished then (true, progress, connection)
  else if progress.sentCount ≥ progress.totalCount then
    (true, { progress with finished := true }, connection)
  else if sendMode ≠ .streamBinaryFile then (false, progress, connection)
  else
    match data with
    | .file _ _ => (false, progress, connection)
    | .multipleFiles files sizes format =>
      sendNextFile dateString files sizes format progress connection
    | .rawData data => sendNextChunk data progress connection

/-- The loop of RETR and LIST: whether all was sent, and the connection afterwards. -/
def sendLoop (dateString : ℕ → Option Bytes) (data : SendData) (sendMode : SendMode) :
    ℕ → SendProgress → Connection → Option (Bool × Connection)
  | 0, _, _ => none
  | fuel + 1, progress, connection =>
    if progress.finished then some (true, connection)
    else
      match sendDataToSend dateString data sendMode progress connection with
      | (false, _, connection) => some (false, connection)
      | (true, progress, connection) => sendLoop dateString data sendMode fuel progress connection

/-! ## What is sent -/

/-- The rounds of the loop: one for each count that is left, and two to notice the end. -/
def SendProgress.rounds (progress : SendProgress) : ℕ :=
  progress.totalCount - progress.sentCount + 2

/-- The loop started with `progress` ends, and it sends these pieces. -/
def SendsPieces (dateString : ℕ → Option Bytes) (data : SendData) (sendMode : SendMode)
    (progress : SendProgress) (pieces : List Bytes) : Prop :=
  ∀ fuel ≥ progress.rounds, ∀ connection,
    sendLoop dateString data sendMode fuel progress connection = some (sendPieces connection pieces)

variable {dateString : ℕ → Option Bytes} {data : SendData} {sendMode : SendMode}
  {progress next : SendProgress} {pieces : List Bytes} {piece : Bytes}

theorem sendLoop_finished {fuel : ℕ} (hfuel : 0 < fuel) (h : progress.finished = true)
    (connection : Connection) :
    sendLoop dateString data sendMode fuel progress connection = some (true, connection) := by
  obtain ⟨fuel, rfl⟩ : ∃ n, fuel = n + 1 := ⟨fuel - 1, by omega⟩
  rw [sendLoop, if_pos h]

/-- The round in which the loop notices that all is sent. -/
theorem sendsPieces_complete (h : progress.sentCount ≥ progress.totalCount) :
    SendsPieces dateString data sendMode progress [] := by
  intro fuel hfuel connection
  unfold SendProgress.rounds at hfuel
  by_cases hfinished : progress.finished = true
  · exact sendLoop_finished (by omega) hfinished connection
  · obtain ⟨fuel, rfl⟩ : ∃ n, fuel = n + 1 := ⟨fuel - 1, by omega⟩
    have hstep : sendDataToSend dateString data sendMode progress connection =
        (true, { progress with finished := true }, connection) := by
      unfold sendDataToSend
      rw [if_neg hfinished, if_pos h]
    rw [sendLoop, if_neg hfinished, hstep]
    exact sendLoop_finished (by omega) rfl connection

/-- A round that sends a piece. -/
theorem SendsPieces.send (h : progress.finished = false)
    (hless : next.rounds < progress.rounds)
    (hstep : ∀ connection, sendDataToSend dateString data sendMode progress connection =
      match sendDataToConnection connection piece with
      | (connection, false) => (false, progress, connection)
      | (connection, true) => (true, next, connection))
    (hnext : SendsPieces dateString data sendMode next pieces) :
    SendsPieces dateString data sendMode progress (piece :: pieces) := by
  intro fuel hfuel connection
  obtain ⟨fuel, rfl⟩ : ∃ n, fuel = n + 1 :=
    ⟨fuel - 1, by unfold SendProgress.rounds at hfuel; omega⟩
  rw [sendLoop, if_neg (by rw [h]; exact Bool.false_ne_true), hstep connection, sendPieces]
  cases sendDataToConnection connection piece with
  | mk connection ok =>
    cases ok with
    | false => rfl
    | true => exact hnext fuel (by omega) connection

theorem rawData_from (content : Bytes) (rest : ℕ) :
    ∀ offset, offset + rest = content.length →
      ∃ pieces, pieces.flatten = content.drop offset ∧ [] ∉ pieces ∧
        SendsPieces dateString (.rawData content) .streamBinaryFile
          ⟨false, content.length, offset⟩ pieces := by
  -- each round leaves fewer bytes
  induction rest using Nat.strong_induction_on with
  | h rest ih =>
    intro offset hrest
    by_cases hzero : rest = 0
    · refine ⟨[], ?_, List.not_mem_nil, sendsPieces_complete (by dsimp only; omega)⟩
      rw [List.drop_of_length_le (by omega), List.flatten_nil]
    · set sendLength := if offset + sendChunkSize ≥ content.length then content.length - offset
        else sendChunkSize with hlength
      have hbounds : 0 < sendLength ∧ sendLength ≤ rest := by
        rw [hlength, sendChunkSize]
        split_ifs
        · omega
        · omega
      obtain ⟨pieces, hflatten, hnonempty, hpieces⟩ :=
        ih (rest - sendLength) (by omega) (offset + sendLength) (by omega)
      refine ⟨(content.drop offset).take sendLength :: pieces, ?_, ?_, ?_⟩
      · rw [List.flatten_cons, hflatten, ← List.drop_drop, List.take_append_drop]
      · have hpiece : 0 < ((content.drop offset).take sendLength).length := by
          rw [List.length_take, List.length_drop]
          omega
        rw [List.mem_cons]
        rintro (hnil | hmem)
        · rw [← hnil] at hpiece
          exact Nat.lt_irrefl 0 hpiece
        · exact hnonempty hmem
      · refine SendsPieces.send rfl ?_ (fun connection => ?_) hpieces
        · unfold SendProgress.rounds
          dsimp only
          omega
        have hmore : ¬ offset ≥ content.length := by omega
        unfold sendDataToSend sendNextChunk
        dsimp only
        rw [if_neg Bool.false_ne_true, if_neg hmore, if_neg (not_not.2 rfl), ← hlength]

/-- **A file** is sent completely. -/
theorem sendLoop_rawData (dateString : ℕ → Option Bytes) (content : Bytes) :
    ∃ pieces, pieces.flatten = content ∧ [] ∉ pieces ∧
      SendsPieces dateString (.rawData content) .streamBinaryFile
        (setupSendProgress (.rawData content) .streamBinaryFile) pieces :=
  rawData_from content content.length 0 (Nat.zero_add _)

theorem multipleFiles_from {sizes : MaxSize} {format : FileSendFormat}
    (before files : List FileWithMetadata) (line : FileWithMetadata → Bytes)
    (hline : ∀ file ∈ files, formatFileLine dateString file sizes format = some (line file)) :
    SendsPieces dateString (.multipleFiles (before ++ files) sizes format) .streamBinaryFile
      ⟨decide (files = [] ∧ before ≠ []), (before ++ files).length, before.length⟩
      (files.map line) := by
  induction files generalizing before with
  | nil => exact sendsPieces_complete (by simp)
  | cons file files ih =>
    have hnext := ih (before ++ [file]) fun f hf => hline f (List.mem_cons_of_mem _ hf)
    rw [List.append_assoc, List.singleton_append] at hnext
    refine SendsPieces.send (by simp) ?_ (fun connection => ?_) hnext
    · simp [SendProgress.rounds]
      omega
    have hmore : ¬ before.length ≥ (before ++ file :: files).length := by simp
    have hfile : (before ++ file :: files)[before.length]? = some file := by simp
    have hlength : (before ++ [file]).length = before.length + 1 := by simp
    have hfinished : decide (before.length + 1 ≥ (before ++ file :: files).length) =
        decide (files = [] ∧ before ++ [file] ≠ []) := by
      cases files with
      | nil => simp
      | cons f files => simp
    unfold sendDataToSend sendNextFile
    dsimp only
    rw [if_neg (by simp), if_neg hmore, if_neg (not_not.2 rfl), hfile, Option.bind_some,
      hline file List.mem_cons_self]
    dsimp only
    rw [hfinished, hlength]

/-- **A folder** is sent line by line. -/
theorem sendLoop_multipleFiles {sizes : MaxSize} {format : FileSendFormat}
    {files : List FileWithMetadata} {line : FileWithMetadata → Bytes}
    (hline : ∀ file ∈ files, formatFileLine dateString file sizes format = some (line file)) :
    SendsPieces dateString (.multipleFiles files sizes format) .streamBinaryFile
      (setupSendProgress (.multipleFiles files sizes format) .streamBinaryFile)
      (files.map line) := by
  have hall := multipleFiles_from [] files line hline
  have hstart : decide (files = [] ∧ ([] : List FileWithMetadata) ≠ []) = false := by simp
  rwa [hstart] at hall

/-- With records nothing is counted, and nothing sent. -/
theorem sendLoop_record (dateString : ℕ → Option Bytes) (data : SendData) :
    SendsPieces dateString data .streamBinaryRecord
      (setupSendProgress data .streamBinaryRecord) [] :=
  sendsPieces_complete (Nat.zero_le _)

/-- A listing of a single file is not implemented: the loop ends with an error. -/
theorem sendLoop_file (dateString : ℕ → Option Bytes) (file : FileWithMetadata)
    (format : FileSendFormat) {fuel : ℕ} (hfuel : 0 < fuel) (connection : Connection) :
    sendLoop dateString (.file file format) .streamBinaryFile fuel
      (setupSendProgress (.file file format) .streamBinaryFile) connection =
      some (false, connection) := by
  obtain ⟨fuel, rfl⟩ : ∃ n, fuel = n + 1 := ⟨fuel - 1, by omega⟩
  rfl

/-! ## Lines -/

/-- One line: a line feed at the end, and no other. -/
def IsLine (text : Bytes) : Prop := ∃ start, text = start ++ [0x0A] ∧ 0x0A ∉ start

variable {c : UInt8}

/-- No tab and no line feed. -/
theorem modeText_notMem (hc : c = 0x09 ∨ c = 0x0A) (mode : ℕ) : c ∉ modeText mode := by
  have htype : getTypeFromMode mode ≠ c := by
    unfold getTypeFromMode
    rcases hc with rfl | rfl
    all_goals split_ifs
    all_goals decide
  have htext : ∀ i, c ∉ permissionText (permissionFromMode mode i) := by
    intro i
    unfold permissionText
    rcases hc with rfl | rfl
    all_goals split_ifs
    all_goals decide
  rw [modeText, List.mem_cons, List.mem_append, List.mem_append]
  rintro (h | (h | h) | h)
  · exact htype h.symm
  · exact htext 0 h
  · exact htext 1 h
  · exact htext 2 h

theorem eplfFacts_notMem (hc : c = 0x09 ∨ c = 0x0A) (file : FileWithMetadata) :
    c ∉ eplfFacts file := by
  have hdigit : ¬ IsDigit c := by
    rcases hc with rfl | rfl
    all_goals decide
  have hnumber : ∀ n, c ∉ decimalText n := decimalText_notMem hdigit
  have hmode := modeText_notMem hc file.mode
  have hliterals : ∀ s ∈ ["/,", "r,", "s", ",", "m", " ,", "i", ".", "up"], c ∉ ascii s := by
    rcases hc with rfl | rfl
    all_goals decide
  unfold eplfFacts
  split_ifs
  all_goals simp only [List.mem_append, not_or]
  · simp [hnumber, hmode, hliterals]
  · simp [hnumber, hmode, hliterals]

/-- **An entry is one line**, if its name has no line feed. -/
theorem eplfLine_isLine {file : FileWithMetadata} (h : 0x0A ∉ file.fileName) :
    IsLine (eplfLine file) := by
  have hfacts := eplfFacts_notMem (.inr rfl) file
  refine ⟨ascii "+" ++ eplfFacts file ++ ascii "\t" ++ file.fileName ++ [0x0D], ?_, ?_⟩
  · rw [eplfLine, List.append_assoc _ [0x0D] [0x0A]]
    rfl
  · have hplus : (0x0A : UInt8) ∉ ascii "+" := by decide
    have htab : (0x0A : UInt8) ∉ ascii "\t" := by decide
    have hreturn : (0x0A : UInt8) ∉ [(0x0D : UInt8)] := by decide
    simp only [List.mem_append, not_or]
    exact ⟨⟨⟨⟨hplus, hfacts⟩, htab⟩, h⟩, hreturn⟩

/-- The line of a file: facts without a tab, a tab, the name and the end of the line. -/
def NamesFile (line : Bytes) (file : FileWithMetadata) : Prop :=
  ∃ facts, line = facts ++ 0x09 :: (file.fileName ++ [0x0D, 0x0A]) ∧ 0x09 ∉ facts

/-- **An entry names its file** behind the first tab. -/
theorem eplfLine_namesFile (file : FileWithMetadata) : NamesFile (eplfLine file) file := by
  refine ⟨ascii "+" ++ eplfFacts file, ?_, ?_⟩
  · rw [eplfLine, List.append_assoc _ file.fileName, List.append_assoc _ (ascii "\t")]
    rfl
  · have hplus : (0x09 : UInt8) ∉ ascii "+" := by decide
    rw [List.mem_append, not_or]
    exact ⟨hplus, eplfFacts_notMem (.inl rfl) file⟩

end SimpleServer.Ftp
