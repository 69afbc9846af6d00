import SimpleServer.Lib.Buffer
import SimpleServer.Utils.Path

/-!
# Serving a folder over HTTP (`http/folder.c`)

The folder, for a relative route the path of the route, and the path of the request are
glued together and normalised; the result is served if it starts with the text of the
folder. `getServeFolderContent` also returns the paths it has touched, in order.

* `getServeFolderContent_touched`: every path that is touched is the final path or an entry
  of it.
-/

namespace SimpleServer.Http

open Lib Utils

inductive HTTPRouteServeFolderType
  | relative
  | absolute
deriving Repr, DecidableEq

structure HTTPRouteServeFolder where
  type : HTTPRouteServeFolderType
  folderPath : Bytes

/-- `HttpRequestProperties`: the path of the request, for the methods that have one. -/
inductive HttpRequestProperties
  | normal (path : Bytes)
  | other

structure ServeFolderFileInfo where
  mimeType : Bytes
  /-- The content, or `none` when only the size was asked for. -/
  fileContent : Option Bytes
  fileSize : ℕ
  fileName : Bytes
deriving Repr, DecidableEq

structure ServeFolderFolderEntry where
  dir : Bool
  fileName : Bytes
  date : ℕ
  size : ℕ
deriving Repr, DecidableEq

structure ServeFolderFolderInfo where
  entries : List ServeFolderFolderEntry
  hasValidParent : Bool
  /-- The entries were freed. -/
  released : Bool
deriving Repr, DecidableEq

inductive ServeFolderResult
  | notFound
  | serverError
  | file (info : ServeFolderFileInfo)
  | folder (info : ServeFolderFolderInfo)
  /-- The entries were freed twice, and nothing is defined any more. -/
  | freedTwice
deriving Repr, DecidableEq

/-- What `stat` tells about a path that is there. -/
structure Stat where
  isFolder : Bool
  date : ℕ
  size : ℕ

inductive StatOutcome
  | found (stat : Stat)
  /-- `EACCES` or `ENOENT`. -/
  | missing
  | failed

/-- The name of an entry that `readdir` delivers: not empty and without a separator. -/
def DirName : Type := { c : Bytes // c ≠ [] ∧ slash ∉ c }

inductive ReadDir
  | entry (name : DirName)
  | failed

/-- The file system, and the table of MIME types. -/
structure FolderEnv where
  stat : Bytes → StatOutcome
  getFileSizeOfFile : Bytes → Option ℕ
  readEntireFile : Bytes → Option Bytes
  /-- What `readdir` delivers for a directory that could be opened, up to its end. -/
  opendir : Bytes → Option (List ReadDir)
  closedir : Bytes → Bool
  getMimeTypeForExt : Bytes → Bytes

/-! ## The final path -/

/-- The path `get_final_file_path` builds before it normalises it. -/
def gluedPath (data : HTTPRouteServeFolder) (routePath requestPath : Bytes) : Bytes :=
  match data.type with
  | .relative => data.folderPath ++ slash :: (routePath ++ slash :: requestPath)
  | .absolute => data.folderPath ++ slash :: requestPath

/-- The size that is allocated for it, a `size_t`. -/
def finalSize (data : HTTPRouteServeFolder) (routePath requestPath : Bytes) : ℕ :=
  let dataLen := data.folderPath.length
  let requestLen := requestPath.length
  match data.type with
  | .relative => (dataLen + (cString routePath).length + requestLen + 3) % 2 ^ 64
  | .absolute => (dataLen + requestLen + 1) % 2 ^ 64

/-- How it is written into the allocated cells; `none` where a write leaves them. An index that
wraps around belongs to a piece behind one that has left them already. -/
def writeResultPath (data : HTTPRouteServeFolder) (routePath requestPath resultPath : Bytes) :
    Option Bytes :=
  let dataLen := data.folderPath.length
  let requestLen := requestPath.length
  match data.type with
  | .relative => do
    let routeLen := (cString routePath).length
    let resultPath ← Buffer.memcpy resultPath 0 data.folderPath
    let resultPath ← Buffer.store resultPath dataLen slash
    let resultPath ← Buffer.memcpy resultPath (dataLen + 1) (cString routePath)
    let resultPath ← Buffer.store resultPath (dataLen + 1 + routeLen) slash
    let resultPath ← Buffer.memcpy resultPath (dataLen + 2 + routeLen) requestPath
    Buffer.store resultPath (dataLen + 2 + routeLen + requestLen) 0
  | .absolute => do
    let resultPath ← Buffer.memcpy resultPath 0 data.folderPath
    let resultPath ← Buffer.store resultPath dataLen slash
    let resultPath ← Buffer.memcpy resultPath (dataLen + 1) requestPath
    Buffer.store resultPath (dataLen + 1 + requestLen) 0

def getFinalFilePath (cwk : Cwalk) (data : HTTPRouteServeFolder) (routePath requestPath : Bytes) :
    Option Bytes :=
  let resultPath := cString (gluedPath data routePath requestPath)
  let bufferSize := resultPath.length + 1
  let buffer := cwk.cwkPathNormalize resultPath
  if buffer.length ≥ bufferSize then none else some buffer

/-! ## Content -/

def getServeFolderContentForFile (env : FolderEnv) (path : Bytes) (sendBody : Bool) :
    ServeFolderResult :=
  let baseName := (path.splitOn slash).getLastD []
  let mimeType := env.getMimeTypeForExt ((baseName.splitOn dot).getLastD [])
  if ¬ sendBody then
    match env.getFileSizeOfFile path with
    | none => .serverError
    | some size => .file ⟨mimeType, none, size, baseName⟩
  else
    match env.readEntireFile path with
    | none => .serverError
    | some content => .file ⟨mimeType, some content, content.length, baseName⟩

/-- The path of an entry of a folder. -/
def entryPath (folder name : Bytes) : Bytes :=
  if folder.getLast? = some slash then folder ++ name else folder ++ slash :: name

def getFolderEntry (env : FolderEnv) (folder name : Bytes) : Option ServeFolderFolderEntry :=
  match env.stat (entryPath folder name) with
  | .found stat => some ⟨stat.isFolder, name, stat.date, stat.size⟩
  | _ => none

/-- The loop over the entries: those found, those whose path was touched, and whether the end of
the folder was reached. -/
def readEntries (env : FolderEnv) (folder : Bytes) :
    List ReadDir → List ServeFolderFolderEntry × List Bytes × Bool
  | [] => ([], [], true)
  | .failed :: _ => ([], [], false)
  | .entry name :: rest =>
    if name.val = ascii "." ∨ name.val = ascii ".." then readEntries env folder rest
    else
      match getFolderEntry env folder name.val with
      | none => ([], [entryPath folder name.val], false)
      | some entry =>
        match readEntries env folder rest with
        | (entries, touched, complete) =>
          (entry :: entries, entryPath folder name.val :: touched, complete)

def getServeFolderContentForFolder (env : FolderEnv) (folderPath : Bytes) (hasValidParent : Bool) :
    ServeFolderResult × List Bytes :=
  match env.opendir folderPath with
  | none => (.serverError, [])
  | some delivered =>
    match readEntries env folderPath delivered with
    | (entries, touched, complete) =>
      if ¬ env.closedir folderPath then
        -- after an error the entries are freed here for the second time
        if ¬ complete ∧ entries ≠ [] then (.freedTwice, touched) else (.serverError, touched)
      -- after an error the entries are freed, and then returned all the same
      else (.folder ⟨entries, hasValidParent, !complete⟩, touched)

/-- `abs_i64`. -/
def absI64 (value : Int64) : UInt64 :=
  if value < 0 then (-(value + 1)).toUInt64 + 1 else value.toUInt64

def isTheSamePath (path1 path2 : Bytes) : Bool :=
  let len1 := path1.length
  let len2 := path2.length
  if len1 = len2 then path1 = path2
  else
    let diff := absI64 (Int64.ofNat len1) - (Int64.ofNat len2).toUInt64
    if diff > 1 then false
    else if diff = 1 then
      let hasSlash := if len1 < len2 then path2 else path1
      if hasSlash.getLast? ≠ some slash then false
      -- `strncmp` looks at nothing behind a zero byte
      else cString (path1.take (min len1 len2)) = cString (path2.take (min len1 len2))
    else false

/-- `get_serve_folder_content`, with the paths it touches. -/
def getServeFolderContent (cwk : Cwalk) (env : FolderEnv) (properties : HttpRequestProperties)
    (data : HTTPRouteServeFolder) (originalPath : Bytes) (sendBody : Bool) :
    ServeFolderResult × List Bytes :=
  if ¬ fileIsAbsolute cwk data.folderPath then (.serverError, [])
  else
    match properties with
    | .other => (.serverError, [])
    | .normal path =>
      match getFinalFilePath cwk data originalPath path with
      | none => (.serverError, [])
      | some finalPath =>
        if ¬ data.folderPath.isPrefixOf finalPath then (.serverError, [])
        else
          match env.stat finalPath with
          | .missing => (.notFound, [finalPath])
          | .failed => (.serverError, [finalPath])
          | .found stat =>
            if stat.isFolder then
              match getServeFolderContentForFolder env finalPath
                  (!isTheSamePath finalPath data.folderPath) with
              | (result, touched) => (result, finalPath :: touched)
            else (getServeFolderContentForFile env finalPath sendBody, [finalPath])

/-! ## What is touched -/

variable {env : FolderEnv} {folder p : Bytes}

theorem readEntries_touched {delivered : List ReadDir}
    (hp : p ∈ (readEntries env folder delivered).2.1) :
    ∃ name, Path.IsName slash dot name ∧ p = entryPath folder name := by
  induction delivered with
  | nil => cases hp
  | cons event rest ih =>
    cases event with
    | failed => cases hp
    | entry name =>
      unfold readEntries at hp
      by_cases hskip : name.val = ascii "." ∨ name.val = ascii ".."
      · rw [if_pos hskip] at hp
        exact ih hp
      · rw [if_neg hskip] at hp
        rw [not_or] at hskip
        have hname : Path.IsName slash dot name.val :=
          ⟨name.property.1, name.property.2, hskip.1, hskip.2⟩
        split at hp
        · exact ⟨name.val, hname, List.mem_singleton.1 hp⟩
        · rcases List.mem_cons.1 hp with hp | hp
          · exact ⟨name.val, hname, hp⟩
          · exact ih hp

theorem getServeFolderContentForFolder_touched {hasValidParent : Bool}
    (hp : p ∈ (getServeFolderContentForFolder env folder hasValidParent).2) :
    ∃ name, Path.IsName slash dot name ∧ p = entryPath folder name := by
  unfold getServeFolderContentForFolder at hp
  split at hp
  · cases hp
  · dsimp only at hp
    split_ifs at hp
    · exact readEntries_touched hp
    · exact readEntries_touched hp
    · exact readEntries_touched hp

/-- **Every path that is touched** is the final path, which starts with the text of the folder,
or an entry of it. -/
theorem getServeFolderContent_touched {cwk : Cwalk} {properties : HttpRequestProperties}
    {data : HTTPRouteServeFolder} {originalPath : Bytes} {sendBody : Bool}
    (hp : p ∈ (getServeFolderContent cwk env properties data originalPath sendBody).2) :
    ∃ path finalPath, properties = .normal path ∧
      getFinalFilePath cwk data originalPath path = some finalPath ∧
      data.folderPath <+: finalPath ∧
      (p = finalPath ∨ ∃ name, Path.IsName slash dot name ∧ p = entryPath finalPath name) := by
  unfold getServeFolderContent at hp
  by_cases habs : fileIsAbsolute cwk data.folderPath = true
  swap
  · rw [if_pos habs] at hp
    cases hp
  rw [if_neg (not_not.2 habs)] at hp
  cases properties with
  | other => cases hp
  | normal path =>
    dsimp only at hp
    cases hfinal : getFinalFilePath cwk data originalPath path with
    | none =>
      rw [hfinal] at hp
      cases hp
    | some finalPath =>
      rw [hfinal] at hp
      dsimp only at hp
      by_cases hpre : data.folderPath.isPrefixOf finalPath = true
      swap
      · rw [if_pos hpre] at hp
        cases hp
      rw [if_neg (not_not.2 hpre)] at hp
      refine ⟨path, finalPath, rfl, hfinal, List.isPrefixOf_iff_prefix.1 hpre, ?_⟩
      split at hp
      · exact .inl (List.mem_singleton.1 hp)
      · exact .inl (List.mem_singleton.1 hp)
      · split_ifs at hp
        · rcases List.mem_cons.1 hp with hp | hp
          · exact .inl hp
          · exact .inr (getServeFolderContentForFolder_touched hp)
        · exact .inl (List.mem_singleton.1 hp)

end SimpleServer.Http
