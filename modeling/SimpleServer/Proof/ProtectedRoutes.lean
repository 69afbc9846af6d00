import Mathlib.Data.List.TakeWhile
import SimpleServer.Http.Routes

/-!
# Protected routes need valid credentials

* `selectRoute_first`: the first route that matches answers the request.
* `parseAuthorizationValue_iff`: what the header has to be for credentials to be read from it.
* `handleHttpAuthorization_iff`: **a user is authorized** exactly when the request presents
  credentials that a provider accepts.
* `protectedRoutes`: the answer to every request, and that the order of the providers does not
  show in the class of their answer.
-/

namespace SimpleServer.Http

open Utils Hpack Http2 Generic

variable {Hash : Type} {manager : RouteManager Hash} {path : ParsedURLPath}
  {request : RoutedRequest} {route : HTTPRoute}

/-! ## Matching -/

/-- The route is for the method, and a route for GET also for HEAD. -/
def MethodMatches (routeMethod : HTTPRequestRouteMethod) (method : HTTPRequestMethod) : Prop :=
  (routeMethod = .get ∧ (method = .get ∨ method = .head)) ∨ (routeMethod = .post ∧ method = .post)

/-- A route without a path is for every path, the others are for their path or for all that
start with it. -/
def PathMatches (routePath : HTTPRoutePath) (path : Bytes) : Prop :=
  ∀ data, routePath.data = some data →
    (routePath.type = .exact → path = data) ∧ (routePath.type = .startsWith → data <+: path)

def RouteMatches (route : HTTPRoute) (path : ParsedURLPath) (request : RoutedRequest) : Prop :=
  MethodMatches route.method request.method ∧ PathMatches route.path path.path

theorem isMatching_iff (routeMethod : HTTPRequestRouteMethod) (method : HTTPRequestMethod) :
    isMatching routeMethod method = true ↔ MethodMatches routeMethod method := by
  unfold isMatching MethodMatches
  cases routeMethod <;> cases method <;> simp

theorem isRouteMatching_iff (routePath : HTTPRoutePath) (path : Bytes) :
    isRouteMatching routePath path = true ↔ PathMatches routePath path := by
  obtain ⟨type, data⟩ := routePath
  unfold isRouteMatching PathMatches
  cases data with
  | none => simp
  | some data =>
    cases type with
    | exact => simp
    | startsWith =>
      -- the check of the length is part of being a prefix
      have hprefix : (if path.length < data.length then false else data.isPrefixOf path) = true ↔
          data <+: path := by
        by_cases hlt : path.length < data.length
        · rw [if_pos hlt]
          constructor
          · intro h
            cases h
          · intro h
            have := h.length_le
            omega
        · rw [if_neg hlt]
          exact List.isPrefixOf_iff_prefix
      simpa using hprefix

/-- A route that does not match is passed over. -/
theorem selectRoute_skip {routes : List HTTPRoute} (h : ¬ RouteMatches route path request) :
    selectRoute manager path request (route :: routes) =
      selectRoute manager path request routes := by
  rw [selectRoute]
  by_cases hmethod : isMatching route.method request.method = true
  · have hpath : ¬ isRouteMatching route.path path.path = true := by
      intro hpath
      exact h ⟨(isMatching_iff _ _).1 hmethod, (isRouteMatching_iff _ _).1 hpath⟩
    rw [if_pos hmethod, if_neg hpath]
  · rw [if_neg hmethod]

/-- **The first route that matches** is the one that is processed. -/
theorem selectRoute_first {before after : List HTTPRoute}
    (hbefore : ∀ r ∈ before, ¬ RouteMatches r path request)
    (hroute : RouteMatches route path request) :
    selectRoute manager path request (before ++ route :: after) =
      processMatchedRoute manager (.normal path) request route := by
  induction before with
  | nil =>
    rw [List.nil_append, selectRoute, if_pos ((isMatching_iff _ _).2 hroute.1),
      if_pos ((isRouteMatching_iff _ _).2 hroute.2)]
  | cons r before ih =>
    have hrest := ih fun r' hr' => hbefore r' (List.mem_cons_of_mem _ hr')
    have hnot := hbefore r List.mem_cons_self
    rw [List.cons_append, selectRoute_skip hnot]
    exact hrest

theorem selectRoute_none {routes : List HTTPRoute}
    (hnone : ∀ r ∈ routes, ¬ RouteMatches r path request) :
    selectRoute manager path request routes = none := by
  induction routes with
  | nil => rfl
  | cons r routes ih =>
    have hrest := ih fun r' hr' => hnone r' (List.mem_cons_of_mem _ hr')
    have hnot := hnone r List.mem_cons_self
    rw [selectRoute_skip hnot]
    exact hrest

/-! ## Credentials -/

/-- The header value is the scheme Basic, a blank and a base64 value whose decoding is the user
name and the password. -/
structure BasicValue (strings : RouteStrings) (value username password : Bytes) : Prop where
  value : ∃ scheme param decoded, value = scheme ++ ascii " " ++ param ∧
    eqIgnoreCase scheme (ascii "Basic") = true ∧ param ≠ [] ∧
    strings.base64DecodeBuffer param = some decoded ∧
    splitAtFirst 0x3A decoded = (username, password)

/-- A header with this key, in letters of either case, and no other one with it in front. -/
def IsFirstHeader (headerFields : List HttpHeaderField) (key : Bytes) (field : HttpHeaderField) :
    Prop :=
  ∃ before after, headerFields = before ++ field :: after ∧ eqIgnoreCase field.key key = true ∧
    ∀ other ∈ before, eqIgnoreCase other.key key = false

/-- **Which header is found**: the first one with the key. -/
theorem findHeaderByKey_eq_some {headerFields : List HttpHeaderField} {key : Bytes}
    {field : HttpHeaderField} :
    findHeaderByKey headerFields key = some field ↔ IsFirstHeader headerFields key field := by
  rw [findHeaderByKey, List.find?_eq_some_iff_append]
  constructor
  · rintro ⟨hkey, before, after, hfields, hbefore⟩
    exact ⟨before, after, hfields, hkey, by simpa using hbefore⟩
  · rintro ⟨before, after, hfields, hkey, hbefore⟩
    exact ⟨hkey, before, after, hfields, by simpa using hbefore⟩

/-- The first Authorization header of the request has these credentials. -/
def PresentsCredentials (strings : RouteStrings) (request : RoutedRequest)
    (username password : Bytes) : Prop :=
  ∃ field, IsFirstHeader request.headerFields (ascii "authorization") field ∧
    BasicValue strings field.value username password

/-- The request presents credentials that a provider accepts. -/
def ValidCredentials (manager : RouteManager Hash) (request : RoutedRequest) : Prop :=
  ∃ username password, PresentsCredentials manager.toRouteStrings request username password ∧
    ∃ provider ∈ manager.authProviders,
      (provider.findUserWithPassword manager.authEnv username password).isOk = true

theorem splitAtFirst_append {c : UInt8} {a b : Bytes} (h : c ∉ a) :
    splitAtFirst c (a ++ c :: b) = (a, b) := by
  unfold splitAtFirst
  have hall : ∀ x ∈ a, decide (x ≠ c) = true := by
    intro x hx
    exact decide_eq_true fun heq => h (heq ▸ hx)
  rw [List.takeWhile_append_of_pos hall, List.dropWhile_append_of_pos hall]
  simp

theorem splitAtFirst_join {c : UInt8} {value : Bytes} (h : c ∈ value) :
    value = (splitAtFirst c value).1 ++ c :: (splitAtFirst c value).2 := by
  obtain ⟨a, b, rfl, hnot⟩ := List.eq_append_cons_of_mem h
  rw [splitAtFirst_append hnot]

theorem splitAtFirst_notMem {c : UInt8} {value : Bytes} (h : c ∉ value) :
    splitAtFirst c value = (value, []) := by
  have hall : ∀ x ∈ value, decide (x ≠ c) = true := by
    intro x hx
    exact decide_eq_true fun heq => h (heq ▸ hx)
  unfold splitAtFirst
  rw [List.takeWhile_eq_self_iff.2 hall, List.dropWhile_eq_nil_iff.2 hall]
  rfl

/-- A scheme that is Basic has no blank. -/
theorem blank_notMem_basic {scheme : Bytes} (h : eqIgnoreCase scheme (ascii "Basic") = true) :
    (0x20 : UInt8) ∉ scheme := by
  intro hmem
  have hlower : lowerByte 0x20 ∈ scheme.map lowerByte := List.mem_map_of_mem hmem
  rw [eq_of_beq h] at hlower
  exact absurd hlower (by decide)

/-- **Which header values are credentials.** -/
theorem parseAuthorizationValue_iff (strings : RouteStrings) (value username password : Bytes) :
    parseAuthorizationValue strings value = .basic username password ↔
      BasicValue strings value username password := by
  have hblank : ascii " " = [0x20] := rfl
  have hcolon : ascii ":" = [0x3A] := rfl
  unfold parseAuthorizationValue
  rw [hblank, hcolon, strings.tstrSplit_eq]
  constructor
  · intro h
    by_cases hempty : value.length = 0
    · rw [if_pos hempty] at h
      cases h
    · rw [if_neg hempty] at h
      by_cases hmem : (0x20 : UInt8) ∈ value
      · rw [if_pos hmem] at h
        dsimp only at h
        by_cases hscheme : eqIgnoreCase (splitAtFirst 0x20 value).1 (ascii "Basic") = true
        · rw [if_pos hscheme] at h
          by_cases hparam : (splitAtFirst 0x20 value).2.length = 0
          · rw [if_pos hparam] at h
            cases h
          · rw [if_neg hparam] at h
            cases hdecoded : strings.base64DecodeBuffer (splitAtFirst 0x20 value).2 with
            | none =>
              rw [hdecoded] at h
              cases h
            | some decoded =>
              rw [hdecoded] at h
              dsimp only at h
              rw [strings.tstrSplit_eq] at h
              refine ⟨_, _, decoded, ?_, hscheme, ?_, hdecoded, ?_⟩
              · rw [List.append_assoc]
                exact splitAtFirst_join hmem
              · intro hnil
                exact hparam (by rw [hnil]; rfl)
              · by_cases hsplit : (0x3A : UInt8) ∈ decoded
                · rw [if_pos hsplit] at h
                  cases h
                  rfl
                · rw [if_neg hsplit] at h
                  cases h
                  exact splitAtFirst_notMem hsplit
        · rw [if_neg hscheme] at h
          cases h
      · rw [if_neg hmem] at h
        cases h
  · rintro ⟨scheme, param, decoded, rfl, hscheme, hparam, hdecoded, hsplit⟩
    have hfirst : splitAtFirst 0x20 (scheme ++ [0x20] ++ param) = (scheme, param) := by
      rw [List.append_assoc]
      exact splitAtFirst_append (blank_notMem_basic hscheme)
    have hmem : (0x20 : UInt8) ∈ scheme ++ [0x20] ++ param := by simp
    rw [hblank, if_neg (by simp), if_pos hmem, hfirst]
    dsimp only
    rw [if_pos hscheme, if_neg (fun hlen => hparam (List.length_eq_zero_iff.1 hlen)), hdecoded]
    dsimp only
    rw [strings.tstrSplit_eq]
    by_cases hsep : (0x3A : UInt8) ∈ decoded
    · rw [if_pos hsep, hsplit]
    · rw [splitAtFirst_notMem hsep] at hsplit
      obtain ⟨rfl, rfl⟩ := Prod.mk.inj hsplit
      rw [if_neg hsep]

/-! ## Authorization -/

/-- What a request for a protected route is told. -/
theorem handleHttpAuthorizationImpl_iff (manager : RouteManager Hash) (request : RoutedRequest) :
    (∃ user, handleHttpAuthorizationImpl manager request = .authorized user) ↔
      ValidCredentials manager request := by
  unfold handleHttpAuthorizationImpl ValidCredentials PresentsCredentials
  simp only [← findHeaderByKey_eq_some]
  cases hfield : findHeaderByKey request.headerFields (ascii "authorization") with
  | none =>
    constructor
    · rintro ⟨user, huser⟩
      cases huser
    · rintro ⟨_, _, ⟨field, hnone, -⟩, -⟩
      cases hnone
  | some field =>
    dsimp only
    cases hvalue : parseAuthorizationValue manager.toRouteStrings field.value with
    | error message =>
      constructor
      · rintro ⟨user, huser⟩
        cases huser
      · rintro ⟨username, password, ⟨field', hsame, hbasic⟩, -⟩
        cases hsame
        rw [(parseAuthorizationValue_iff _ _ _ _).2 hbasic] at hvalue
        cases hvalue
    | basic username password =>
      have hbasic := (parseAuthorizationValue_iff _ _ _ _).1 hvalue
      have haccepts := find_ok_iff manager.authEnv manager.authProviders username password
      dsimp only
      constructor
      · rintro ⟨user, huser⟩
        refine ⟨username, password, ⟨field, rfl, hbasic⟩, haccepts.1 ?_⟩
        split at huser
        · cases huser
        · cases huser
        · rename_i hfound
          rw [hfound]
          rfl
        · cases huser
      · rintro ⟨username', password', ⟨field', hsame, hbasic'⟩, hprovider⟩
        cases hsame
        rw [(parseAuthorizationValue_iff _ _ _ _).2 hbasic'] at hvalue
        cases hvalue
        have hok := haccepts.2 hprovider
        cases hfound : authenticationProvidersFindUserWithPassword manager.authEnv
            manager.authProviders username password with
        | ok user => exact ⟨user, rfl⟩
        | noSuchUser =>
          rw [hfound] at hok
          cases hok
        | wrongPassword =>
          rw [hfound] at hok
          cases hok
        | error message =>
          rw [hfound] at hok
          cases hok

/-- **A user is authorized** exactly when the credentials are valid. -/
theorem handleHttpAuthorization_iff {auth : HTTPAuthorization} (hauth : auth ≠ .none)
    (manager : RouteManager Hash) (request : RoutedRequest) :
    (∃ user, handleHttpAuthorization manager request auth = .authorized user) ↔
      ValidCredentials manager request := by
  cases auth with
  | none => exact absurd rfl hauth
  | simple => exact handleHttpAuthorizationImpl_iff manager request
  | complicated todo => exact handleHttpAuthorizationImpl_iff manager request

/-- An internal response that refuses the request. -/
def Refuses (selected : Option SelectedRoute) : Prop :=
  ∃ send path originalPath, selected = some ⟨.internal send, path, originalPath, none⟩ ∧
    (send.status = 401 ∨ send.status = 500)

/-- **The answer of a protected route.** -/
theorem processMatchedRoute_protected (hauth : route.auth ≠ .none) (manager : RouteManager Hash)
    (path : ParsedURLPath) (request : RoutedRequest) :
    (ValidCredentials manager request ∧
      ∃ user, processMatchedRoute manager (.normal path) request route =
        some ⟨route.data, path, route.path.data, some user⟩) ∨
    (¬ ValidCredentials manager request ∧
      Refuses (processMatchedRoute manager (.normal path) request route)) := by
  have hiff := handleHttpAuthorization_iff hauth manager request
  unfold processMatchedRoute
  dsimp only
  rw [if_pos hauth]
  cases hstatus : handleHttpAuthorization manager request route.auth with
  | authorized user =>
    exact .inl ⟨hiff.1 ⟨user, hstatus⟩, user, rfl⟩
  | unauthorized reason =>
    refine .inr ⟨?_, _, _, _, rfl, .inl rfl⟩
    intro hvalid
    obtain ⟨user, huser⟩ := hiff.2 hvalid
    rw [hstatus] at huser
    cases huser
  | authorizationError message =>
    refine .inr ⟨?_, _, _, _, rfl, .inr rfl⟩
    intro hvalid
    obtain ⟨user, huser⟩ := hiff.2 hvalid
    rw [hstatus] at huser
    cases huser
  | error message =>
    refine .inr ⟨?_, _, _, _, rfl, .inr rfl⟩
    intro hvalid
    obtain ⟨user, huser⟩ := hiff.2 hvalid
    rw [hstatus] at huser
    cases huser

/-! ## Every request -/

/-- The answer to a request with a normal path, and how the providers are asked. -/
structure RoutesProtected (manager : RouteManager Hash) (path : ParsedURLPath)
    (request : RoutedRequest) : Prop where
  /-- Without a route that matches there is no answer. -/
  unmatched : (∀ r ∈ manager.routes, ¬ RouteMatches r path request) →
    routeManagerGetRouteForRequest manager (.normal path) request = none
  /-- A route without an authorization answers if it is the first one that matches. -/
  unguarded : ∀ before route after, manager.routes = before ++ route :: after →
    (∀ r ∈ before, ¬ RouteMatches r path request) → RouteMatches route path request →
    route.auth = .none →
    routeManagerGetRouteForRequest manager (.normal path) request =
      some ⟨route.data, path, route.path.data, none⟩
  /-- One with an authorization only answers to valid credentials. -/
  guarded : ∀ before route after, manager.routes = before ++ route :: after →
    (∀ r ∈ before, ¬ RouteMatches r path request) → RouteMatches route path request →
    route.auth ≠ .none →
    (ValidCredentials manager request ∧
      ∃ user, routeManagerGetRouteForRequest manager (.normal path) request =
        some ⟨route.data, path, route.path.data, some user⟩) ∨
    (¬ ValidCredentials manager request ∧
      Refuses (routeManagerGetRouteForRequest manager (.normal path) request))
  /-- The providers accept if one of them does. -/
  accepts : ∀ username password,
    (∃ provider ∈ manager.authProviders,
      (provider.findUserWithPassword manager.authEnv username password).findClass = .ok) →
    (authenticationProvidersFindUserWithPassword manager.authEnv manager.authProviders username
      password).findClass = .ok
  /-- Their answer is the best one that any of them gives. -/
  best : ∀ username password,
    BestAnswer (classesOf manager.authEnv manager.authProviders username password)
      (authenticationProvidersFindUserWithPassword manager.authEnv manager.authProviders username
        password).findClass
  /-- Their order does not matter. -/
  order : ∀ providers, providers.Perm manager.authProviders → ∀ username password,
    (authenticationProvidersFindUserWithPassword manager.authEnv providers username
        password).findClass =
      (authenticationProvidersFindUserWithPassword manager.authEnv manager.authProviders username
        password).findClass

/-- **Protected routes need valid credentials.** -/
theorem protectedRoutes (manager : RouteManager Hash) (path : ParsedURLPath)
    (request : RoutedRequest) : RoutesProtected manager path request where
  unmatched hnone := selectRoute_none hnone
  unguarded := by
    intro before route after hroutes hbefore hroute hauth
    show selectRoute manager path request manager.routes = _
    rw [hroutes, selectRoute_first hbefore hroute]
    unfold processMatchedRoute
    dsimp only
    rw [if_neg (not_not.2 hauth)]
  guarded := by
    intro before route after hroutes hbefore hroute hauth
    have hfirst : routeManagerGetRouteForRequest manager (.normal path) request =
        processMatchedRoute manager (.normal path) request route := by
      show selectRoute manager path request manager.routes = _
      rw [hroutes, selectRoute_first hbefore hroute]
    rw [hfirst]
    exact processMatchedRoute_protected hauth manager path request
  accepts := by
    rintro username password ⟨provider, hprovider, hclass⟩
    refine (isOk_iff _).1 ((find_ok_iff _ _ _ _).2 ⟨provider, hprovider, ?_⟩)
    exact (isOk_iff _).2 hclass
  best := find_best manager.authEnv manager.authProviders
  order := by
    intro providers hperm username password
    refine BestAnswer.unique (find_best manager.authEnv providers username password)
      (find_best manager.authEnv manager.authProviders username password) ?_
    intro c
    exact (hperm.map _).mem_iff

end SimpleServer.Http
