import SimpleServer.Proof.ProtectedRoutes

/-!
# Routes and the spelling of a path

Routes are matched by the path as it was sent, and a file of a folder is chosen by the path in its
normal form. A guard in front of a folder is passed by with a path that leads under its prefix
without starting with it.

* `selectRoute_selectedIndex`: the route that answers, by its place in the table.
* `refused_iff`: which paths a folder never answers.
* `folder_unprotected`: what the route of the folder answers.
* `neverServed_iff`: **when a guard cannot be passed by.**
-/

namespace SimpleServer.Http

open Lib Utils Hpack Http2 Generic

variable {Hash : Type} {manager : RouteManager Hash} {path : ParsedURLPath}
variable {request : RoutedRequest} {routes : List HTTPRoute} {index : ℕ}

/-! ## The route that answers -/

/-- The place of the route that answers. -/
def selectedIndex (routes : List HTTPRoute) (path : ParsedURLPath) (request : RoutedRequest) :
    Option ℕ :=
  routes.findIdx? fun route =>
    isMatching route.method request.method && isRouteMatching route.path path.path

theorem selectRoute_selectedIndex (manager : RouteManager Hash) (path : ParsedURLPath)
    (request : RoutedRequest) (routes : List HTTPRoute) :
    selectRoute manager path request routes =
      ((selectedIndex routes path request).bind fun index => routes[index]?).bind
        (processMatchedRoute manager (.normal path) request) := by
  induction routes with
  | nil => rfl
  | cons route routes ih =>
    rw [selectRoute, selectedIndex, List.findIdx?_cons]
    by_cases hmethod : isMatching route.method request.method = true
    · by_cases hpath : isRouteMatching route.path path.path = true
      · simp [hmethod, hpath]
      · rw [if_pos hmethod, if_neg hpath, ih, selectedIndex]
        simp [hmethod, hpath, Option.bind_map]
    · rw [if_neg hmethod, ih, selectedIndex]
      simp [hmethod, Option.bind_map]

theorem matches_iff (route : HTTPRoute) :
    (isMatching route.method request.method && isRouteMatching route.path path.path) = true ↔
      RouteMatches route path request := by
  rw [Bool.and_eq_true, isMatching_iff, isRouteMatching_iff, RouteMatches]

/-- A route answers if it matches and no route in front of it does. -/
theorem selectedIndex_eq_some : selectedIndex routes path request = some index ↔
    (∃ route, routes[index]? = some route ∧ RouteMatches route path request) ∧
      ∀ before < index, ∀ route, routes[before]? = some route →
        ¬ RouteMatches route path request := by
  rw [selectedIndex, List.findIdx?_eq_some_iff_getElem]
  constructor
  · rintro ⟨hindex, hmatches, hbefore⟩
    refine ⟨⟨routes[index], List.getElem?_eq_getElem hindex, (matches_iff _).1 hmatches⟩, ?_⟩
    intro before hless route hroute
    obtain ⟨hlength, rfl⟩ := List.getElem?_eq_some_iff.1 hroute
    exact fun h => hbefore before hless ((matches_iff _).2 h)
  · rintro ⟨⟨route, hroute, hmatches⟩, hbefore⟩
    obtain ⟨hindex, rfl⟩ := List.getElem?_eq_some_iff.1 hroute
    refine ⟨hindex, (matches_iff _).2 hmatches, ?_⟩
    intro before hless h
    have hlength : before < routes.length := hless.trans hindex
    exact hbefore before hless routes[before] (List.getElem?_eq_getElem hlength)
      ((matches_iff _).1 h)

/-! ## What a folder refuses -/

/-- Not found, or an error. -/
def ServeFolderResult.IsRefusal (result : ServeFolderResult) : Prop :=
  result = .notFound ∨ result = .serverError

/-- Where a path leads to. -/
def normalForm (path : Bytes) : Bytes := Path.lexical slash dot (cString path)

/-- A folder that is absolute, and a path that leads to what starts with its text. -/
def LeadsInside (folderPath path : Bytes) : Prop :=
  folderPath.head? = some slash ∧ folderPath <+: normalForm (folderPath ++ slash :: path)

variable {cwk : Cwalk} {data : HTTPRouteServeFolder}

theorem fileIsAbsolute_iff (cwk : Cwalk) (file : Bytes) :
    fileIsAbsolute cwk file = true ↔ file.head? = some slash := by
  unfold fileIsAbsolute
  cases file with
  | nil => simp
  | cons c file =>
    rw [if_neg (by simp), cwk.isAbsolute_eq _ (List.cons_ne_nil _ _)]
    simp

theorem getFinalFilePath_absolute (habsolute : data.type = .absolute)
    (hhead : data.folderPath.head? = some slash) (originalPath requestPath : Bytes) :
    getFinalFilePath cwk data originalPath requestPath =
      some (normalForm (data.folderPath ++ slash :: requestPath)) := by
  obtain ⟨rest, hrest⟩ := List.head?_eq_some_iff.1 hhead
  have hstring : (cString (data.folderPath ++ slash :: requestPath)).head? = some slash := by
    rw [hrest, cString, List.cons_append, List.takeWhile_cons_of_pos (by decide)]
    rfl
  -- normalizing never makes the path longer, so the buffer is large enough
  have hlength := Path.lexical_length_le dot hstring
  unfold getFinalFilePath gluedPath
  rw [habsolute]
  dsimp only
  rw [cwk.normalize_absolute _ hstring, if_neg (by omega)]
  rfl

/-- A file system in which every path is a file. -/
def allFiles : FolderEnv where
  stat _ := .found ⟨false, 0, 0⟩
  getFileSizeOfFile _ := some 0
  readEntireFile _ := some []
  opendir _ := none
  closedir _ := true
  getMimeTypeForExt _ := []

/-- **Which paths a folder never answers**: those that do not lead inside. -/
theorem refused_iff (habsolute : data.type = .absolute) (originalPath requestPath : Bytes) :
    (∀ env sendBody, (getServeFolderContent cwk env (.normal requestPath) data originalPath
        sendBody).1.IsRefusal) ↔ ¬ LeadsInside data.folderPath requestPath := by
  constructor
  · rintro h ⟨hhead, hinside⟩
    have hrefusal := h allFiles false
    unfold getServeFolderContent at hrefusal
    rw [if_neg (not_not.2 ((fileIsAbsolute_iff cwk _).2 hhead))] at hrefusal
    dsimp only at hrefusal
    rw [getFinalFilePath_absolute habsolute hhead] at hrefusal
    dsimp only at hrefusal
    rw [if_neg (not_not.2 (List.isPrefixOf_iff_prefix.2 hinside))] at hrefusal
    rcases hrefusal with hnotFound | herror
    · cases hnotFound
    · cases herror
  · intro hnot env sendBody
    right
    unfold getServeFolderContent
    by_cases habs : fileIsAbsolute cwk data.folderPath = true
    · have hhead := (fileIsAbsolute_iff cwk _).1 habs
      have hinside : ¬ data.folderPath.isPrefixOf
          (normalForm (data.folderPath ++ slash :: requestPath)) = true := by
        intro hprefix
        exact hnot ⟨hhead, List.isPrefixOf_iff_prefix.1 hprefix⟩
      rw [if_neg (not_not.2 habs)]
      dsimp only
      rw [getFinalFilePath_absolute habsolute hhead]
      dsimp only
      rw [if_pos hinside]
    · rw [if_pos habs]

/-! ## A guard in front of a folder -/

/-- A table of routes with a protected route for all paths that start with a prefix, and behind it
an unprotected one for a folder. -/
structure GuardedTable where
  routes : List HTTPRoute
  guard : HTTPRoute
  folder : HTTPRoute
  guardIndex : ℕ
  folderIndex : ℕ
  guarded : Bytes
  data : HTTPRouteServeFolder
  guardAt : routes[guardIndex]? = some guard
  folderAt : routes[folderIndex]? = some folder
  inFront : guardIndex < folderIndex
  guardPath : guard.path = ⟨.startsWith, some guarded⟩
  guardAuth : guard.auth ≠ .none
  endsInSlash : guarded.getLast? = some slash
  folderData : folder.data = .serveFolder data
  absolute : data.type = .absolute
  folderAuth : folder.auth = .none

variable {table : GuardedTable}

/-- If the path leads under the prefix, the route of the folder does not answer, or it refuses. -/
def NeverServed (cwk : Cwalk) (table : GuardedTable) (path : ParsedURLPath)
    (request : RoutedRequest) : Prop :=
  table.guarded <+: normalForm path.path →
    selectedIndex table.routes path request = some table.folderIndex →
      ∀ env sendBody, (getServeFolderContent cwk env (.normal path.path) table.data
        (table.folder.path.data.getD []) sendBody).1.IsRefusal

/-- Another route in front of the folder is for the request. -/
def AnsweredInFront (table : GuardedTable) (path : ParsedURLPath) (request : RoutedRequest) :
    Prop :=
  ∃ index < table.folderIndex, index ≠ table.guardIndex ∧
    ∃ route, table.routes[index]? = some route ∧ RouteMatches route path request

/-- The guard is for paths that start with its prefix, as they were sent. -/
theorem guard_matches_iff : RouteMatches table.guard path request ↔
    MethodMatches table.guard.method request.method ∧ table.guarded <+: path.path := by
  rw [RouteMatches, PathMatches, table.guardPath]
  simp

/-- The route of the folder answers if it is for the request, and neither the guard nor another
route in front of it is. -/
theorem folder_selected_iff : selectedIndex table.routes path request = some table.folderIndex ↔
    RouteMatches table.folder path request ∧ ¬ RouteMatches table.guard path request ∧
      ¬ AnsweredInFront table path request := by
  rw [selectedIndex_eq_some, table.folderAt]
  constructor
  · rintro ⟨⟨route, hroute, hfolder⟩, hbefore⟩
    obtain rfl := Option.some.inj hroute
    refine ⟨hfolder, hbefore _ table.inFront _ table.guardAt, ?_⟩
    rintro ⟨index, hless, -, route, hroute, hmatches⟩
    exact hbefore index hless route hroute hmatches
  · rintro ⟨hfolder, hguard, hfront⟩
    refine ⟨⟨table.folder, rfl, hfolder⟩, ?_⟩
    intro index hless route hroute hmatches
    by_cases hindex : index = table.guardIndex
    · rw [hindex, table.guardAt] at hroute
      obtain rfl := Option.some.inj hroute
      exact hguard hmatches
    · exact hfront ⟨index, hless, hindex, route, hroute, hmatches⟩

/-- What the route of the folder answers is answered without credentials. -/
theorem folder_unprotected (hroutes : manager.routes = table.routes)
    (hselected : selectedIndex table.routes path request = some table.folderIndex) :
    routeManagerGetRouteForRequest manager (.normal path) request =
      some ⟨.serveFolder table.data, path, table.folder.path.data, none⟩ := by
  rw [routeManagerGetRouteForRequest, hroutes, selectRoute_selectedIndex, hselected,
    Option.bind_some, table.folderAt, Option.bind_some, processMatchedRoute,
    if_neg (not_not.2 table.folderAuth), table.folderData]

/-- **When a guard cannot be passed by**: if a path that leads under its prefix also starts with it,
or is for another route in front of the folder, not for the folder, or does not lead inside. Where
the route of the folder is the one that answers, a manager with these routes hands it out without
credentials. -/
theorem neverServed_iff (cwk : Cwalk) (table : GuardedTable) (path : ParsedURLPath)
    (request : RoutedRequest) :
    (NeverServed cwk table path request ↔
      (table.guarded <+: normalForm path.path →
        MethodMatches table.guard.method request.method ∧ table.guarded <+: path.path ∨
          AnsweredInFront table path request ∨ ¬ RouteMatches table.folder path request ∨
            ¬ LeadsInside table.data.folderPath path.path)) ∧
      (selectedIndex table.routes path request = some table.folderIndex →
        ∀ manager : RouteManager Hash, manager.routes = table.routes →
          routeManagerGetRouteForRequest manager (.normal path) request =
            some ⟨.serveFolder table.data, path, table.folder.path.data, none⟩) := by
  constructor
  · unfold NeverServed
    rw [folder_selected_iff, refused_iff table.absolute, guard_matches_iff]
    tauto
  · intro hselected manager hroutes
    exact folder_unprotected hroutes hselected

/-- The folder `/srv`, with a guard in front of `/secret/`. -/
def secretTable : GuardedTable where
  routes := [⟨.get, ⟨.startsWith, some (ascii "/secret/")⟩,
      .serveFolder ⟨.absolute, ascii "/srv"⟩, .simple⟩,
    ⟨.get, ⟨.startsWith, some (ascii "/")⟩, .serveFolder ⟨.absolute, ascii "/srv"⟩, .none⟩]
  guard := ⟨.get, ⟨.startsWith, some (ascii "/secret/")⟩,
    .serveFolder ⟨.absolute, ascii "/srv"⟩, .simple⟩
  folder := ⟨.get, ⟨.startsWith, some (ascii "/")⟩, .serveFolder ⟨.absolute, ascii "/srv"⟩, .none⟩
  guardIndex := 0
  folderIndex := 1
  guarded := ascii "/secret/"
  data := ⟨.absolute, ascii "/srv"⟩
  guardAt := rfl
  folderAt := rfl
  inFront := by decide
  guardPath := rfl
  guardAuth := by decide
  endsInSlash := by decide
  folderData := rfl
  absolute := rfl
  folderAuth := rfl

/-- `/x/../secret/key` is served without credentials. -/
theorem dotDot_served : ¬ NeverServed .plain secretTable ⟨ascii "/x/../secret/key", [], none⟩
    ⟨.get, [], []⟩ := by
  intro h
  have hunder : secretTable.guarded <+: normalForm (ascii "/x/../secret/key") := by decide
  have hselected : selectedIndex secretTable.routes ⟨ascii "/x/../secret/key", [], none⟩
      ⟨.get, [], []⟩ = some 1 := by
    decide
  rcases h hunder hselected allFiles false with hnotFound | herror
  · exact absurd hnotFound (by decide)
  · exact absurd herror (by decide)

end SimpleServer.Http
