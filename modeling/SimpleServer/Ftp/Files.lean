import Mathlib.Data.List.DropRight
import SimpleServer.Utils.LineSpec
import SimpleServer.Utils.Path
import SimpleServer.Ftp.SendData

/-!
# Files and folders of a transfer (`ftp/file_ops.c`, `utils/path.c`)

RETR reads a whole file, LIST a folder with what `stat` says about its entries, and STOR writes
what it reads from the data connection into a file.

* `readEntireFile_eq`, `writeToFile_eq`: what success means for the content of a file.
* `receiveData_eq`, `receiveData_onlyBytes`: what is received is what arrives.
* `getFilesInFolder_eq`: a listing has the entries of the folder in order.
-/

namespace SimpleServer.Ftp

open Lib Utils

/-- The fields of `struct stat` that a listing shows. -/
structure FileStat where
  mode : ℕ
  nlink : ℕ
  uid : ℕ
  gid : ℕ
  size : ℕ
  mtime : ℕ
  dev : ℕ
  ino : ℕ

/-- A call of `readdir` before the end of the folder. -/
inductive DirEvent
  | entry (name : Bytes)
  | failed

structure FileSystem where
  content : Bytes → Option Bytes
  stat : Bytes → Option FileStat
  /-- What `readdir` delivers for a folder that could be opened, up to its end. -/
  opendir : Bytes → Option (List DirEvent)

/-- How the calls of one access to a file or a folder end. `fread` and `fwrite` get the number of
bytes they should move, and return how many they did. -/
structure FileCalls where
  fopen : Bool
  fseekEnd : Bool
  fseekSet : Bool
  fread : ℕ → ℕ
  fwrite : ℕ → ℕ
  fclose : Bool
  closedir : Bool
  /-- The width of a number, computed with a logarithm. -/
  sizeForNumber : ℕ → ℕ

/-- No call fails. -/
structure FileCalls.Succeed (calls : FileCalls) : Prop where
  fopen : calls.fopen = true
  fseekEnd : calls.fseekEnd = true
  fseekSet : calls.fseekSet = true
  fread : ∀ n, calls.fread n = n
  fwrite : ∀ n, calls.fwrite n = n
  fclose : calls.fclose = true
  closedir : calls.closedir = true

/-! ## The content of a file -/

def readEntireFile (calls : FileCalls) (files : FileSystem) (path : Bytes) : Option Bytes :=
  match files.content path with
  | none => none
  | some content =>
    if ¬ calls.fopen then none
    else if ¬ calls.fseekEnd then none
    else if ¬ calls.fseekSet then none
    else
      let fileSize := content.length
      let fileData := content.take (calls.fread fileSize)
      if fileData.length ≠ fileSize then none
      else if ¬ calls.fclose then none
      else some fileData

def FileSystem.write (files : FileSystem) (path data : Bytes) : FileSystem :=
  { files with content := Function.update files.content path (some data) }

/-- `write_to_file`; the file is truncated when it is opened. -/
def writeToFile (calls : FileCalls) (files : FileSystem) (path buffer : Bytes) :
    FileSystem × Bool :=
  if ¬ calls.fopen then (files, false)
  else
    let written := buffer.take (calls.fwrite buffer.length)
    let files := files.write path written
    if written.length ≠ buffer.length then (files, false)
    else if ¬ calls.fclose then (files, false)
    else (files, true)

def getDataToSendForRetr (calls : FileCalls) (files : FileSystem) (path : Bytes) :
    Option SendData :=
  (readEntireFile calls files path).map .rawData

/-- What STOR reads from the data connection. -/
def receiveData (incoming : List Incoming) : Option Bytes :=
  match (bufferedReaderGetUntilEnd (getBufferedReader incoming)).2 with
  | .ok buffer => some buffer
  | _ => none

/-! ## The entries of a folder -/

def getMetadataForFile (files : FileSystem) (absolutePath name : Bytes) :
    Option FileWithMetadata :=
  (files.stat absolutePath).map fun stat =>
    { mode := stat.mode
      linkAmount := stat.nlink
      owners := ⟨stat.uid, stat.gid⟩
      size := stat.size
      lastMod := stat.mtime
      fileName := name
      identifier := ⟨stat.dev, stat.ino⟩ }

/-- `get_metadata_for_file_abs`: the name stands behind the last separator. -/
def getMetadataForFileAbs (files : FileSystem) (absolutePath : Bytes) : Option FileWithMetadata :=
  getMetadataForFile files absolutePath (absolutePath.rtakeWhile (· ≠ slash))

def getMetadataForFileFolder (files : FileSystem) (folder name : Bytes) :
    Option FileWithMetadata :=
  getMetadataForFile files
    (if folder.getLast? = some slash then folder ++ name else folder ++ slash :: name) name

/-- `internal_update_max_size`. -/
def updateMaxSize (calls : FileCalls) (sizes : MaxSize) (file : FileWithMetadata) : MaxSize :=
  { link := max sizes.link (calls.sizeForNumber file.linkAmount)
    user := max sizes.user (calls.sizeForNumber file.owners.user)
    group := max sizes.group (calls.sizeForNumber file.owners.group)
    size := max sizes.size (calls.sizeForNumber file.size) }

/-- The loop over the entries. -/
def readFiles (calls : FileCalls) (files : FileSystem) (folder : Bytes) :
    List DirEvent → List FileWithMetadata → MaxSize → Option (List FileWithMetadata × MaxSize)
  | [], found, sizes => some (found, sizes)
  | .failed :: _, _, _ => none
  | .entry name :: rest, found, sizes =>
    if name = ascii "." then readFiles calls files folder rest found sizes
    else if name = ascii ".." then readFiles calls files folder rest found sizes
    else
      match getMetadataForFileFolder files folder name with
      | none => none
      | some file =>
        readFiles calls files folder rest (found ++ [file]) (updateMaxSize calls sizes file)

def getFilesInFolder (calls : FileCalls) (files : FileSystem) (folder : Bytes)
    (format : FileSendFormat) : Option SendData :=
  match files.opendir folder with
  | none => none
  | some delivered =>
    match readFiles calls files folder delivered [] ⟨0, 0, 0, 0⟩ with
    | none => none
    | some (found, sizes) =>
      if ¬ calls.closedir then none else some (.multipleFiles found sizes format)

def getDataToSendForList (calls : FileCalls) (files : FileSystem) (isFolder : Bool) (path : Bytes)
    (format : FileSendFormat) : Option SendData :=
  if isFolder then getFilesInFolder calls files path format
  else (getMetadataForFileAbs files path).map fun file => .file file format

/-! ## Reading and writing a file -/

variable {calls : FileCalls} {files : FileSystem} {path content buffer folder : Bytes}

/-- **A file that is read** is read completely. -/
theorem readEntireFile_eq {data : Bytes} (h : readEntireFile calls files path = some data) :
    files.content path = some data := by
  unfold readEntireFile at h
  split at h
  · cases h
  · rename_i content hcontent
    dsimp only at h
    split_ifs at h with h1 h2 h3 h4 h5
    cases h
    rw [List.length_take] at h4
    rw [hcontent, List.take_of_length_le (by omega)]

theorem readEntireFile_succeeds (hcalls : calls.Succeed) (h : files.content path = some content) :
    readEntireFile calls files path = some content := by
  unfold readEntireFile
  rw [h]
  dsimp only
  rw [hcalls.fread, List.take_length]
  simp [hcalls.fopen, hcalls.fseekEnd, hcalls.fseekSet, hcalls.fclose]

/-- What RETR sends is in the file. -/
theorem getDataToSendForRetr_eq {data : SendData}
    (h : getDataToSendForRetr calls files path = some data) :
    ∃ content, files.content path = some content ∧ data = .rawData content := by
  obtain ⟨content, hread, rfl⟩ := Option.map_eq_some_iff.1 h
  exact ⟨content, readEntireFile_eq hread, rfl⟩

/-- **A file that is written** is written completely. -/
theorem writeToFile_eq {files' : FileSystem}
    (h : writeToFile calls files path buffer = (files', true)) :
    files'.content path = some buffer := by
  unfold writeToFile at h
  dsimp only at h
  split_ifs at h with h1 h2 h3
  any_goals cases (Prod.mk.inj h).2
  rw [List.length_take] at h2
  rw [← (Prod.mk.inj h).1, List.take_of_length_le (by omega)]
  exact Function.update_self path (some buffer) files.content

theorem writeToFile_succeeds (hcalls : calls.Succeed) (files : FileSystem) (path buffer : Bytes) :
    writeToFile calls files path buffer = (files.write path buffer, true) := by
  unfold writeToFile
  dsimp only
  rw [hcalls.fwrite, List.take_length]
  simp [hcalls.fopen, hcalls.fclose]

/-- **Whatever arrives is received**, however it is cut. -/
theorem receiveData_eq {incoming : List Incoming} (h : OnlyBytes incoming) :
    receiveData incoming = some (arriving incoming) := by
  have hsteady : (getBufferedReader incoming).Steady := ⟨⟨rfl, le_rfl⟩, h⟩
  have hunread : (getBufferedReader incoming).unread = arriving incoming := rfl
  obtain ⟨hok, -⟩ := getUntilEnd_ok hsteady
  rw [receiveData, hok, hunread]

/-- **Nothing else is received**: a stream that breaks off is not. -/
theorem receiveData_onlyBytes {incoming : List Incoming} {data : Bytes}
    (h : receiveData incoming = some data) : OnlyBytes incoming ∧ data = arriving incoming := by
  have hbytes : OnlyBytes incoming := by
    unfold receiveData at h
    split at h
    · rename_i buffer hok
      exact @getUntilEnd_onlyBytes (getBufferedReader incoming) buffer rfl hok
    · cases h
  refine ⟨hbytes, ?_⟩
  rw [receiveData_eq hbytes] at h
  exact (Option.some.inj h).symm

/-! ## Listing a folder -/

/-- The names of the entries, without `.` and `..`. -/
def entryNames (delivered : List DirEvent) : List Bytes :=
  delivered.filterMap fun event =>
    match event with
    | .entry name => if name = ascii "." ∨ name = ascii ".." then none else some name
    | .failed => none

/-- `readdir` did not fail, and `stat` succeeds for the entry. -/
def Listable (files : FileSystem) (folder : Bytes) : DirEvent → Prop
  | .failed => False
  | .entry name =>
    name = ascii "." ∨ name = ascii ".." ∨ (getMetadataForFileFolder files folder name).isSome

/-- `found` are the entries with these names, in their order. -/
def Entries (files : FileSystem) (folder : Bytes) (names : List Bytes)
    (found : List FileWithMetadata) : Prop :=
  List.Forall₂ (fun name file => getMetadataForFileFolder files folder name = some file) names found

theorem entryNames_cons (name : Bytes) (rest : List DirEvent) :
    entryNames (.entry name :: rest) =
      if name = ascii "." ∨ name = ascii ".." then entryNames rest
      else name :: entryNames rest := by
  unfold entryNames
  split_ifs with hdots
  · rw [List.filterMap_cons_none (by simp [hdots])]
  · rw [List.filterMap_cons_some (by simp [hdots]; rfl)]

theorem readFiles_dots {name : Bytes} {rest : List DirEvent} {found : List FileWithMetadata}
    {sizes : MaxSize} (h : name = ascii "." ∨ name = ascii "..") :
    readFiles calls files folder (.entry name :: rest) found sizes =
      readFiles calls files folder rest found sizes := by
  rw [readFiles]
  rcases h with h | h
  · rw [if_pos h]
  · rw [if_pos h, ite_self]

/-- The loop appends the entries in their order. -/
theorem readFiles_eq {delivered : List DirEvent} {found result : List FileWithMetadata}
    {sizes sizes' : MaxSize}
    (h : readFiles calls files folder delivered found sizes = some (result, sizes')) :
    ∃ more, result = found ++ more ∧ Entries files folder (entryNames delivered) more := by
  induction delivered generalizing found sizes with
  | nil =>
    cases h
    exact ⟨[], (List.append_nil _).symm, .nil⟩
  | cons event rest ih =>
    cases event with
    | failed => cases h
    | entry name =>
      rw [entryNames_cons]
      by_cases hdots : name = ascii "." ∨ name = ascii ".."
      · rw [readFiles_dots hdots] at h
        rw [if_pos hdots]
        exact ih h
      · rw [readFiles, if_neg (not_or.1 hdots).1, if_neg (not_or.1 hdots).2] at h
        rw [if_neg hdots]
        split at h
        · cases h
        · rename_i file hfile
          obtain ⟨more, hresult, hmore⟩ := ih h
          refine ⟨file :: more, ?_, .cons hfile hmore⟩
          rw [hresult, List.append_assoc, List.singleton_append]

theorem readFiles_succeeds {delivered : List DirEvent}
    (h : ∀ event ∈ delivered, Listable files folder event) (found : List FileWithMetadata)
    (sizes : MaxSize) : (readFiles calls files folder delivered found sizes).isSome := by
  induction delivered generalizing found sizes with
  | nil => rfl
  | cons event rest ih =>
    obtain ⟨hevent, hrest⟩ := List.forall_mem_cons.1 h
    cases event with
    | failed => exact hevent.elim
    | entry name =>
      by_cases hdots : name = ascii "." ∨ name = ascii ".."
      · rw [readFiles_dots hdots]
        exact ih hrest _ _
      · rw [readFiles, if_neg (not_or.1 hdots).1, if_neg (not_or.1 hdots).2]
        have hsome : (getMetadataForFileFolder files folder name).isSome :=
          (or_assoc.2 hevent).resolve_left hdots
        obtain ⟨file, hfile⟩ := Option.isSome_iff_exists.1 hsome
        rw [hfile]
        exact ih hrest _ _

/-- **A listing** has one entry for each name that `readdir` delivers, in this order. -/
theorem getFilesInFolder_eq {format : FileSendFormat} {data : SendData}
    (h : getFilesInFolder calls files folder format = some data) :
    ∃ delivered found sizes, files.opendir folder = some delivered ∧
      data = .multipleFiles found sizes format ∧
      Entries files folder (entryNames delivered) found := by
  unfold getFilesInFolder at h
  split at h
  · cases h
  · rename_i delivered hopen
    split at h
    · cases h
    · rename_i found sizes hread
      split_ifs at h
      obtain ⟨more, hmore, hentries⟩ := readFiles_eq hread
      rw [List.nil_append] at hmore
      rw [← hmore] at hentries
      exact ⟨delivered, found, sizes, hopen, (Option.some.inj h).symm, hentries⟩

theorem getFilesInFolder_succeeds {delivered : List DirEvent} (hcalls : calls.Succeed)
    (hopen : files.opendir folder = some delivered)
    (h : ∀ event ∈ delivered, Listable files folder event) (format : FileSendFormat) :
    (getFilesInFolder calls files folder format).isSome := by
  obtain ⟨⟨found, sizes⟩, hread⟩ := Option.isSome_iff_exists.1
    (@readFiles_succeeds calls files folder delivered h [] ⟨0, 0, 0, 0⟩)
  rw [getFilesInFolder, hopen]
  dsimp only
  rw [hread]
  simp [hcalls.closedir]

end SimpleServer.Ftp
