import SimpleServer.Http.Folder

/-!
# HTTP requests and the web root

The final path of a request is accepted by its text: it starts with the text of the web
root, as a sibling does whose name extends the name of the root.

* `finalTarget_names`: the final path is made of names.
* `servesInside_iff`: a request is served from the web root exactly when its path does not
  lead to a name that extends the name of the root.
-/

namespace SimpleServer.Http

open Lib Utils

/-- A path made of the names of the folder and of further names, so without `..`: the folder
itself, or the folder followed by a separator and further components. -/
def Within (folder : RealPath) (p : Bytes) : Prop :=
  ∃ rest : List Bytes, (∀ c ∈ rest, Path.IsName slash dot c) ∧
    p = Path.absolute slash (folder.names ++ rest)

/-- Whatever the file system holds: if this request is answered, only paths within the folder
are touched for it. -/
def ServesInside (cwk : Cwalk) (folder : RealPath) (type : HTTPRouteServeFolderType)
    (routePath requestPath : Bytes) : Prop :=
  ∀ env sendBody,
    (getServeFolderContent cwk env (.normal requestPath) ⟨type, folder.path⟩ routePath
      sendBody).1 ≠ .serverError →
    ∀ p ∈ (getServeFolderContent cwk env (.normal requestPath) ⟨type, folder.path⟩ routePath
      sendBody).2, Within folder p

/-- Where the path of the request leads to. -/
def finalTarget (folder : RealPath) (type : HTTPRouteServeFolderType)
    (routePath requestPath : Bytes) : Bytes :=
  Path.lexical slash dot (cString (gluedPath ⟨type, folder.path⟩ routePath requestPath))

variable {cwk : Cwalk} {folder : RealPath} {type : HTTPRouteServeFolderType}
  {routePath requestPath p : Bytes}

theorem gluedPath_head (folder : RealPath) (type : HTTPRouteServeFolderType)
    (routePath requestPath : Bytes) :
    (cString (gluedPath ⟨type, folder.path⟩ routePath requestPath)).head? = some slash := by
  obtain ⟨rest, hrest⟩ := List.head?_eq_some_iff.1 folder.path_head
  cases type with
  | relative =>
    dsimp only [gluedPath]
    rw [hrest, cString, List.cons_append, List.takeWhile_cons_of_pos (by decide)]
    rfl
  | absolute =>
    dsimp only [gluedPath]
    rw [hrest, cString, List.cons_append, List.takeWhile_cons_of_pos (by decide)]
    rfl

theorem getFinalFilePath_eq (cwk : Cwalk) (folder : RealPath) (type : HTTPRouteServeFolderType)
    (routePath requestPath : Bytes) :
    getFinalFilePath cwk ⟨type, folder.path⟩ routePath requestPath =
      some (finalTarget folder type routePath requestPath) := by
  have hhead := gluedPath_head folder type routePath requestPath
  -- normalizing never makes the path longer, so the buffer is large enough
  have hlen := Path.lexical_length_le dot hhead
  unfold getFinalFilePath
  dsimp only
  rw [cwk.normalize_absolute _ hhead, if_neg (by omega)]
  rfl

/-- The final path is made of names. -/
theorem finalTarget_names (folder : RealPath) (type : HTTPRouteServeFolderType)
    (routePath requestPath : Bytes) :
    ∃ names : List Bytes, (∀ c ∈ names, Path.IsName slash dot c) ∧
      finalTarget folder type routePath requestPath = Path.absolute slash names :=
  ⟨_, Path.resolve_isName fun _ hc => Path.mem_components hc, rfl⟩

/-- What starts with the text of the folder and does not extend its name is within it. -/
theorem within_finalTarget
    (hpre : folder.path <+: finalTarget folder type routePath requestPath)
    (hcond : folder.IsRoot ∨
      ¬ Path.Extends slash folder.path (finalTarget folder type routePath requestPath)) :
    Within folder (finalTarget folder type routePath requestPath) := by
  obtain ⟨names, hnames, htarget⟩ := finalTarget_names folder type routePath requestPath
  rw [htarget] at hpre hcond ⊢
  by_cases hroot : folder.IsRoot
  · -- every absolute path is within the root
    exact ⟨names, hnames, by rw [show folder.names = [] from hroot, List.nil_append]⟩
  · have hne : names ≠ [] := by
      rintro rfl
      exact RealPath.ne_root_of_prefix hroot hpre rfl
    have hbelow := (Path.prefix_iff.1 hpre).resolve_right (hcond.resolve_left hroot)
    obtain ⟨rest, rfl⟩ := Path.names_of_below hroot hne folder.isName hnames hbelow
    exact ⟨rest, fun c hc => hnames c (List.mem_append_right _ hc), rfl⟩

theorem entryPath_absolute {names : List Bytes} (hnames : ∀ c ∈ names, Path.IsName slash dot c)
    (name : Bytes) :
    entryPath (Path.absolute slash names) name = Path.absolute slash (names ++ [name]) := by
  have happ : names ++ [name] ≠ [] := by simp
  rw [entryPath, Path.absolute, Path.absolute, if_neg happ]
  by_cases hnil : names = []
  · -- only the path of the root ends in a separator
    subst hnil
    simp [Path.render]
  · have hlast := (Path.absolute_clean hnil hnames).noTrailing
    rw [Path.absolute, if_neg hnil] at hlast
    rw [if_neg hnil, if_neg hlast]
    simp [Path.render]

/-- An entry of a folder within the web root is within it. -/
theorem within_entryPath {name : Bytes} (h : Within folder p)
    (hname : Path.IsName slash dot name) : Within folder (entryPath p name) := by
  obtain ⟨rest, hrest, rfl⟩ := h
  have hall : ∀ c ∈ folder.names ++ rest, Path.IsName slash dot c := by
    intro c hc
    rcases List.mem_append.1 hc with hc | hc
    · exact folder.isName c hc
    · exact hrest c hc
  refine ⟨rest ++ [name], ?_, ?_⟩
  · intro c hc
    rcases List.mem_append.1 hc with hc | hc
    · exact hrest c hc
    · rw [List.mem_singleton.1 hc]
      exact hname
  · rw [entryPath_absolute hall, List.append_assoc]

/-- A file system without files. -/
def emptyEnv : FolderEnv where
  stat _ := .missing
  getFileSizeOfFile _ := none
  readEntireFile _ := none
  opendir _ := none
  closedir _ := true
  getMimeTypeForExt _ := []

/-- On a file system without files the final path is looked up and not found. -/
theorem getServeFolderContent_emptyEnv (cwk : Cwalk) (sendBody : Bool)
    (hpre : folder.path <+: finalTarget folder type routePath requestPath) :
    getServeFolderContent cwk emptyEnv (.normal requestPath) ⟨type, folder.path⟩ routePath
        sendBody =
      (.notFound, [finalTarget folder type routePath requestPath]) := by
  have hhead := folder.path_head
  obtain ⟨rest, hrest⟩ := List.head?_eq_some_iff.1 hhead
  have habs : fileIsAbsolute cwk folder.path = true := by
    rw [fileIsAbsolute, if_neg (by rw [hrest]; simp), cwk.isAbsolute_eq _ (by rw [hrest]; simp),
      hhead]
    rfl
  unfold getServeFolderContent
  rw [if_neg (not_not.2 habs)]
  dsimp only
  rw [getFinalFilePath_eq]
  dsimp only
  rw [if_neg (not_not.2 (List.isPrefixOf_iff_prefix.2 hpre))]
  rfl

/-- **A request is served from within the web root exactly when that is the root of the file
system or the path does not lead to a name that extends its name.** -/
theorem servesInside_iff (cwk : Cwalk) (folder : RealPath) (type : HTTPRouteServeFolderType)
    (routePath requestPath : Bytes) :
    ServesInside cwk folder type routePath requestPath ↔
      folder.IsRoot ∨
        ¬ Path.Extends slash folder.path (finalTarget folder type routePath requestPath) := by
  constructor
  · intro h
    by_contra hcond
    rw [not_or, not_not] at hcond
    obtain ⟨hroot, hext⟩ := hcond
    -- even where there are no files, the path itself is looked up
    have hcontent := getServeFolderContent_emptyEnv cwk true (Path.prefix_iff.2 (.inr hext))
    have htouched := h emptyEnv true
    rw [hcontent] at htouched
    obtain ⟨rest, -, hwithin⟩ := htouched nofun _ (List.mem_singleton_self _)
    rw [hwithin] at hext
    exact Path.not_below_of_extends hext (Path.below_append hroot rest)
  · intro hcond env sendBody _ p hp
    obtain ⟨path, finalPath, hpath, hfinal, hpre, htouched⟩ := getServeFolderContent_touched hp
    cases hpath
    rw [getFinalFilePath_eq] at hfinal
    cases hfinal
    have hwithin := within_finalTarget hpre hcond
    rcases htouched with rfl | ⟨name, hname, rfl⟩
    · exact hwithin
    · exact within_entryPath hwithin hname

/-- The web root of the examples. -/
def srvWww : RealPath := ⟨[ascii "srv", ascii "www"], by decide⟩

/-- A request for `/../www2/secret` leaves the web root for its sibling. -/
theorem siblingRequest_leaves :
    ¬ ServesInside Cwalk.plain srvWww .absolute (ascii "/") (ascii "/../www2/secret") := by
  intro h
  have hpre : srvWww.path <+:
      finalTarget srvWww .absolute (ascii "/") (ascii "/../www2/secret") := by decide +kernel
  have hcontent := getServeFolderContent_emptyEnv Cwalk.plain true hpre
  have htouched := h emptyEnv true
  rw [hcontent] at htouched
  obtain ⟨rest, -, hwithin⟩ := htouched nofun _ (List.mem_singleton_self _)
  have hext : Path.Extends slash srvWww.path
      (finalTarget srvWww .absolute (ascii "/") (ascii "/../www2/secret")) := by decide +kernel
  rw [hwithin] at hext
  exact Path.not_below_of_extends hext (Path.below_append (by decide) rest)

end SimpleServer.Http
