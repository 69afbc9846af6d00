import SimpleServer.Generic.Authentication
import SimpleServer.Http.Folder
import SimpleServer.Http.Send
import SimpleServer.Http.Uri

/-!
# Routes (`http/routes.c`)

A request is answered by the first route of the table that matches its method and its path.
A route that asks for an authorization is only selected for a user that a provider accepts;
otherwise an internal response takes its place.

The functions of the tstr library and the base64 decoder are a parameter (`RouteStrings`). The
proxies before and after a request only look at it. Memory is always found.
-/

namespace SimpleServer.Http

open Utils Hpack Http2 Generic

/-! ## The table -/

/-- What the routes look at in a request. -/
structure RoutedRequest where
  method : HTTPRequestMethod
  headerFields : List HttpHeaderField
  body : Bytes
deriving Repr, DecidableEq

inductive HTTPRequestRouteMethod where
  | get
  | post
deriving Repr, DecidableEq

inductive HTTPRoutePathType where
  | exact
  | startsWith
deriving Repr, DecidableEq

/-- `HTTPRoutePath`; the data is a C string or `NULL`. -/
structure HTTPRoutePath where
  type : HTTPRoutePathType
  data : Option Bytes

inductive HTTPAuthorization where
  | none
  | simple
  | complicated (todo : UInt64)
deriving Repr, DecidableEq

/-- `HTTPRouteFn`: what a normal route is answered with. -/
inductive HTTPRouteFn where
  | executor (run : ParsedURLPath → Bool → HTTPResponseToSend)
  | executorAuth (run : ParsedURLPath → AuthUserWithContext → Bool → HTTPResponseToSend)
  | executorExtended (run : SendSettings → RoutedRequest → ParsedURLPath → HTTPResponseToSend)

inductive HTTPRouteSpecialDataType where
  | shutdown
  | ws
deriving Repr, DecidableEq

inductive HTTPRouteData where
  | normal (fn : HTTPRouteFn)
  | special (type : HTTPRouteSpecialDataType)
  | internal (send : HTTPResponseToSend)
  | serveFolder (data : HTTPRouteServeFolder)

structure HTTPRoute where
  method : HTTPRequestRouteMethod
  path : HTTPRoutePath
  data : HTTPRouteData
  auth : HTTPAuthorization

structure SelectedRoute where
  routeData : HTTPRouteData
  path : ParsedURLPath
  originalPath : Option Bytes
  authUser : Option AuthUserWithContext

/-- What `http_properties` is for a request: only the methods with a path are routed. -/
inductive RoutedProperties where
  | normal (path : ParsedURLPath)
  | other

variable {Hash : Type}

/-- The bytes before and behind the first `c`; without one, everything is before it. -/
def splitAtFirst (c : UInt8) (value : Bytes) : Bytes × Bytes :=
  (value.takeWhile (· ≠ c), (value.dropWhile (· ≠ c)).drop 1)

/-- The functions on strings that the routes use. -/
structure RouteStrings where
  tstrSplit : Bytes → Bytes → Option (Bytes × Bytes)
  base64DecodeBuffer : Bytes → Option Bytes
  /-- `tstr_split` splits at the first delimiter, if there is one. -/
  tstrSplit_eq : ∀ value c,
    tstrSplit value [c] = if c ∈ value then some (splitAtFirst c value) else none

structure RouteManager (Hash : Type) extends RouteStrings where
  routes : List HTTPRoute
  authEnv : AuthEnvironment Hash
  authProviders : List (AuthenticationProvider Hash)
  /-- The build has `NDEBUG` not defined. -/
  debug : Bool

/-! ## Matching -/

def isMatching (routeMethod : HTTPRequestRouteMethod) (method : HTTPRequestMethod) : Bool :=
  if routeMethod = .get ∧ method = .head then true
  else if routeMethod = .get ∧ method = .get then true
  else if routeMethod = .post ∧ method = .post then true
  else false

def isRouteMatching (routePath : HTTPRoutePath) (path : Bytes) : Bool :=
  match routePath.data with
  | none => true
  | some data =>
    match routePath.type with
    | .exact => path = data
    | .startsWith => if path.length < data.length then false else data.isPrefixOf path

/-! ## Authorization -/

def findHeaderByKey (headerFields : List HttpHeaderField) (key : Bytes) : Option HttpHeaderField :=
  headerFields.find? fun header => eqIgnoreCase header.key key

inductive HttpAuthHeaderValue where
  | basic (username password : Bytes)
  | error (message : String)
deriving Repr, DecidableEq

def parseAuthorizationValue (strings : RouteStrings) (value : Bytes) : HttpAuthHeaderValue :=
  if value.length = 0 then .error "empty header value"
  else
    match strings.tstrSplit value (ascii " ") with
    | none => .error "no auth-params specified"
    | some (authScheme, authParam) =>
      if eqIgnoreCase authScheme (ascii "Basic") then
        if authParam.length = 0 then .error "data was empty"
        else
          match strings.base64DecodeBuffer authParam with
          | none => .error "base64 decoding failed"
          | some decoded =>
            match strings.tstrSplit decoded (ascii ":") with
            | some (username, password) => .basic username password
            | none => .basic decoded []
      else .error "invalid auth-scheme specified"

inductive HttpAuthStatus where
  | unauthorized (reason : String)
  | authorized (user : AuthUserWithContext)
  | authorizationError (message : String)
  | error (message : String)
deriving Repr, DecidableEq

def handleHttpAuthorizationImpl (manager : RouteManager Hash) (request : RoutedRequest) :
    HttpAuthStatus :=
  match findHeaderByKey request.headerFields (ascii "authorization") with
  | none => .unauthorized "Authorization header missing"
  | some field =>
    match parseAuthorizationValue manager.toRouteStrings field.value with
    | .error _ => .error "Header parse error"
    | .basic username password =>
      match authenticationProvidersFindUserWithPassword manager.authEnv manager.authProviders
          username password with
      | .noSuchUser => .unauthorized "no such user"
      | .wrongPassword => .unauthorized "wrong password"
      | .ok user => .authorized user
      | .error _ => .authorizationError "Underlying authentication provider error"

/-- `handle_http_authorization`; the data of a complicated one is not looked at yet. -/
def handleHttpAuthorization (manager : RouteManager Hash) (request : RoutedRequest) :
    HTTPAuthorization → HttpAuthStatus
  | .none => .error "Implementation error"
  | .simple => handleHttpAuthorizationImpl manager request
  | .complicated _ => handleHttpAuthorizationImpl manager request

/-! ## Selection -/

/-- `DEFAULT_AUTH_REALM`. -/
def defaultAuthRealm : Bytes := ascii "Authentication"

/-- The response to a request without valid credentials. -/
def unauthorizedResponse (debug : Bool) (reason : String) : HTTPResponseToSend :=
  ⟨401, httpResponseBodyEmpty, some (ascii "text/plain"),
    ⟨ascii "www-authenticate",
      ascii "Basic realm=\"" ++ defaultAuthRealm ++ ascii "\", charset=\"UTF-8\""⟩ ::
    if debug then [⟨ascii "x-special-reason", ascii reason⟩] else []⟩

/-- The response to an error in the authorization. -/
def authorizationErrorResponse (text : String) (sendBody : Bool) : HTTPResponseToSend :=
  ⟨500, httpResponseBodyFromBytes
      (ascii "Internal implementation error in authorization process, type " ++ ascii text)
      sendBody,
    some (ascii "text/plain"), []⟩

def processMatchedRoute (manager : RouteManager Hash) (properties : RoutedProperties)
    (request : RoutedRequest) (route : HTTPRoute) : Option SelectedRoute :=
  match properties with
  | .other => none
  | .normal path =>
    let sendBody := request.method ≠ .head
    if route.auth ≠ .none then
      match handleHttpAuthorization manager request route.auth with
      | .unauthorized reason =>
        some ⟨.internal (unauthorizedResponse manager.debug reason), path, route.path.data, none⟩
      | .authorized user => some ⟨route.data, path, route.path.data, some user⟩
      | .authorizationError _ =>
        some ⟨.internal (authorizationErrorResponse "0" sendBody), path, route.path.data, none⟩
      | .error _ =>
        some ⟨.internal (authorizationErrorResponse "1" sendBody), path, route.path.data, none⟩
    else some ⟨route.data, path, route.path.data, none⟩

/-- The loop over the routes. -/
def selectRoute (manager : RouteManager Hash) (path : ParsedURLPath) (request : RoutedRequest) :
    List HTTPRoute → Option SelectedRoute
  | [] => none
  | route :: routes =>
    if isMatching route.method request.method then
      if isRouteMatching route.path path.path then
        processMatchedRoute manager (.normal path) request route
      else selectRoute manager path request routes
    else selectRoute manager path request routes

def routeManagerGetRouteForRequest (manager : RouteManager Hash) (properties : RoutedProperties)
    (request : RoutedRequest) : Option SelectedRoute :=
  match properties with
  | .other => none
  | .normal path => selectRoute manager path request manager.routes

end SimpleServer.Http
