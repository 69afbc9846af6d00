import SimpleServer.Ftp.State

/-!
# Paths of an FTP session (`ftp/file_ops.c`)

Every path a client names is joined to the served folder or to the current working
directory, normalised, and accepted if it starts with the text of the served folder.

* `internalResolvePathInCwd_iff`: when a path is accepted, and which.
* `changeDirnameTo_eq`: what a change of the directory does to the state.
-/

namespace SimpleServer.Ftp

open Lib Utils

inductive DirChangeResult
  | ok
  | errorPathTraversal
  | noSuchDir
  | error
deriving Repr, DecidableEq

/-- `get_dir_name_relative_to_ftp_root`; a quotation mark is escaped by doubling it. -/
def getDirNameRelativeToFtpRoot (state : FTPState) (file : Bytes) (escape : Bool) :
    Option Bytes :=
  if state.globalFolder.getLast? = some slash ∨ file.getLast? = some slash then none
  else if ¬ state.globalFolder.isPrefixOf file then none
  else if file.length = state.globalFolder.length then some [slash]
  else
    let relative := file.drop state.globalFolder.length
    some (if escape then relative.flatMap fun c => if c = 0x22 then [c, c] else [c] else relative)

def getCurrentDirNameRelativeToFtpRoot (state : FTPState) (escape : Bool) : Option Bytes :=
  getDirNameRelativeToFtpRoot state state.currentWorkingDirectory escape

/-- `resolve_abs_path_in_cwd`: the normalised path, or what is stored in `*result`. -/
def resolveAbsPathInCwd (cwk : Cwalk) (state : FTPState) (userFileInputToSanitize : Bytes) :
    Except DirChangeResult Bytes :=
  let bufferSize := userFileInputToSanitize.length + 1
  let file := cwk.cwkPathNormalize userFileInputToSanitize
  if file.length ≥ bufferSize then .error .error
  else if state.globalFolder.getLast? = some slash ∨ file.getLast? = some slash then
    .error .error
  else if ¬ state.globalFolder.isPrefixOf file then .error .errorPathTraversal
  else .ok file

/-- The path before it is normalised. -/
def joinedPath (cwk : Cwalk) (state : FTPState) (file : Bytes) : Bytes :=
  if fileIsAbsolute cwk file then state.globalFolder ++ file
  else state.currentWorkingDirectory ++ slash :: file

def internalResolvePathInCwd (cwk : Cwalk) (state : FTPState) (file : Bytes) :
    Except DirChangeResult Bytes :=
  resolveAbsPathInCwd cwk state (joinedPath cwk state file)

def resolvePathInCwd (cwk : Cwalk) (state : FTPState) (file : Bytes) : Option Bytes :=
  (internalResolvePathInCwd cwk state file).toOption

def changeDirnameTo (cwk : Cwalk) (state : FTPState) (file : Bytes) :
    FTPState × DirChangeResult :=
  match internalResolvePathInCwd cwk state file with
  -- a traversal changes nothing and is answered as a success
  | .error .errorPathTraversal => (state, .ok)
  | .error _ => (state, .noSuchDir)
  | .ok newDir =>
    if newDir.getLast? = some slash then (state, .error)
    else if ¬ state.globalFolder.isPrefixOf newDir then (state, .errorPathTraversal)
    else ({ state with currentWorkingDirectory := newDir }, .ok)

/-! ## What is accepted -/

/-- What holds of the folders of a session: the served folder is a real path other than the
root, and the current working directory is absolute. -/
structure Served (folder : RealPath) (state : FTPState) : Prop where
  notRoot : ¬ folder.IsRoot
  global : state.globalFolder = folder.path
  absolute : state.currentWorkingDirectory.head? = some slash

variable {cwk : Cwalk} {folder : RealPath} {state : FTPState} {file p : Bytes}

/-- Where the client's path leads to. -/
def lexicalTarget (cwk : Cwalk) (state : FTPState) (file : Bytes) : Bytes :=
  Path.lexical slash dot (joinedPath cwk state file)

theorem joinedPath_head (h : Served folder state) (file : Bytes) :
    (joinedPath cwk state file).head? = some slash := by
  have hfolder := folder.path_head
  have hcwd := h.absolute
  rw [← h.global] at hfolder
  unfold joinedPath
  split_ifs
  · rw [List.head?_append, hfolder, Option.some_or]
  · rw [List.head?_append, hcwd, Option.some_or]

theorem lexicalTarget_clean (hroot : ¬ folder.IsRoot)
    (hpre : folder.path <+: lexicalTarget cwk state file) :
    Path.Clean slash dot (lexicalTarget cwk state file) :=
  Path.lexical_clean (RealPath.ne_root_of_prefix hroot hpre)

/-- **A path is accepted** when its lexical normal form starts with the text of the served
folder, and that form is what is returned. -/
theorem internalResolvePathInCwd_iff (h : Served folder state) :
    internalResolvePathInCwd cwk state file = .ok p ↔
      p = lexicalTarget cwk state file ∧ folder.path <+: p := by
  have hhead : (joinedPath cwk state file).head? = some slash := joinedPath_head h file
  have hnorm : cwk.cwkPathNormalize (joinedPath cwk state file) = lexicalTarget cwk state file :=
    cwk.normalize_absolute _ hhead
  have hlen : (lexicalTarget cwk state file).length ≤ (joinedPath cwk state file).length :=
    Path.lexical_length_le dot hhead
  have hglobal : state.globalFolder.getLast? ≠ some slash := by
    rw [h.global]
    exact (folder.path_clean h.notRoot).noTrailing
  unfold internalResolvePathInCwd resolveAbsPathInCwd
  simp only [hnorm, List.isPrefixOf_iff_prefix, h.global] at hglobal ⊢
  rw [if_neg (by omega)]
  constructor
  · intro hok
    split_ifs at hok with h1 h2
    · cases hok
      exact ⟨rfl, h2⟩
  · rintro ⟨rfl, hpre⟩
    have hclean := lexicalTarget_clean h.notRoot hpre
    rw [if_neg, if_neg (not_not.2 hpre)]
    · rintro (hlast | hlast)
      · exact hglobal hlast
      · exact hclean.noTrailing hlast

theorem resolvePathInCwd_iff (h : Served folder state) :
    resolvePathInCwd cwk state file = some p ↔
      p = lexicalTarget cwk state file ∧ folder.path <+: p := by
  rw [← internalResolvePathInCwd_iff h, resolvePathInCwd]
  cases internalResolvePathInCwd cwk state file with
  | error e => simp [Except.toOption]
  | ok q => simp [Except.toOption]

/-- **A change of the directory** goes where the path leads to, if that is accepted, and
otherwise nowhere. -/
theorem changeDirnameTo_eq (h : Served folder state) :
    (changeDirnameTo cwk state file).1 =
      if folder.path <+: lexicalTarget cwk state file then
        { state with currentWorkingDirectory := lexicalTarget cwk state file }
      else state := by
  unfold changeDirnameTo
  split
  · rename_i herr
    rw [if_neg]
    intro hpre
    rw [(internalResolvePathInCwd_iff h).2 ⟨rfl, hpre⟩] at herr
    cases herr
  · rename_i e hne herr
    rw [if_neg]
    intro hpre
    rw [(internalResolvePathInCwd_iff h).2 ⟨rfl, hpre⟩] at herr
    cases herr
  · rename_i newDir hok
    obtain ⟨rfl, hpre⟩ := (internalResolvePathInCwd_iff h).1 hok
    have hclean := lexicalTarget_clean h.notRoot hpre
    rw [if_pos hpre, if_neg hclean.noTrailing, if_neg]
    rw [not_not, List.isPrefixOf_iff_prefix, h.global]
    exact hpre

end SimpleServer.Ftp
