import GloryHole.Config.Types
import GloryHole.Go.Http

/-!
# Authentication of API requests

`applyAuthConfig`, the sessions and `authMiddleware`.  bcrypt is third-party code: only
its comparison of a hash with a password is used here.
-/

namespace GloryHole.Api

open Go
open Config (AuthConfig)

/-! ## Sessions -/

structure SessionData where
  subject : GoString
  csrfToken : GoString
  expires : Int
  deriving DecidableEq

abbrev SessionManager := List (GoString × SessionData)

namespace SessionManager

/-- `Validate`.  It also drops an expired session, which no lookup finds valid again. -/
def validate (m : SessionManager) (now : Int) (token : GoString) : Bool :=
  if token = [] then false
  else
    match m.lookup token with
    | none => false
    | some session => ¬ session.expires < now

def csrfToken (m : SessionManager) (now : Int) (token : GoString) : GoString :=
  if token = [] then []
  else
    match m.lookup token with
    | none => []
    | some session => if session.expires < now then [] else session.csrfToken

end SessionManager

/-! ## Credentials -/

structure AuthServer where
  authEnabled : Bool := false
  authHeader : GoString := []
  apiKey : GoString := []
  basicUser : GoString := []
  basicPass : GoString := []
  passwordHash : GoString := []
  sessionManager : Option SessionManager := none
  deriving DecidableEq

def AuthServer.applyAuthConfig (lower : Nat → Nat) (s : AuthServer) (auth : AuthConfig) :
    AuthServer :=
  let header := trimSpace auth.header
  let header := if header = [] then lit "Authorization" else header
  let apiKey := trimSpace auth.apiKey
  let username := trimSpace auth.username
  let password := auth.password
  let passwordHash := trimSpace auth.passwordHash
  let hasBasicAuth := username ≠ [] ∧ (password ≠ [] ∨ passwordHash ≠ [])
  if auth.enabled ∧ (apiKey ≠ [] ∨ hasBasicAuth) then
    { s with
      authEnabled := true
      apiKey := apiKey
      basicUser := username
      basicPass := password
      passwordHash := passwordHash
      authHeader := toLower lower header }
  else
    { s with
      authEnabled := false
      apiKey := []
      basicUser := []
      basicPass := []
      passwordHash := []
      authHeader := [] }

def headerToken (value : GoString) : GoString :=
  match fields value with
  | [scheme, token] => if equalFold scheme (lit "Bearer") then token else []
  | [token] => token
  | _ => []

/-- `extractAPIKey`: the Authorization header is read if the configured one is blank. -/
def extractAPIKey (r : Request) (header : GoString) : GoString :=
  let value := trimSpace (r.headerGet header)
  let value :=
    if value = [] ∧ ¬ equalFold header (lit "Authorization") then
      trimSpace (r.headerGet (lit "Authorization"))
    else value
  if value = [] then [] else headerToken value

section

variable (compare : GoString → GoString → Bool)

/-- `matchBasicCredentials`: a hash is checked before a plain password is looked at. -/
def matchBasicCredentials (user pass expectedUser expectedPass expectedHash : GoString) :
    Bool :=
  if expectedUser = [] then false
  else if user ≠ expectedUser then false
  else if expectedHash ≠ [] then compare expectedHash pass
  else if expectedPass ≠ [] then pass = expectedPass
  else false

namespace AuthServer

def validateUserPasswordInput (s : AuthServer) (user pass : GoString) : Bool :=
  matchBasicCredentials compare user pass s.basicUser s.basicPass s.passwordHash

def sessionCookieName : GoString := lit "gh_session"

def sessionTokenFromRequest (r : Request) : GoString := (r.cookie sessionCookieName).getD []

def hasValidSession (s : AuthServer) (now : Int) (r : Request) : Bool :=
  match s.sessionManager with
  | none => false
  | some m => m.validate now (sessionTokenFromRequest r)

def authorizeRequest (s : AuthServer) (now : Int) (r : Request) : Bool :=
  if s.hasValidSession now r then true
  else if s.apiKey ≠ [] ∧ extractAPIKey r s.authHeader ≠ [] ∧
      extractAPIKey r s.authHeader = s.apiKey then true
  else if s.basicUser ≠ [] then
    match r.basicAuth with
    | some (user, pass) => s.validateUserPasswordInput compare user pass
    | none => false
  else false

/-! ## The middleware -/

def authBypassPaths : List GoString :=
  [lit "/health", lit "/ready", lit "/api/health", lit "/login", lit "/logout",
    lit "/dns-query"]

def isAuthRequired (s : AuthServer) (r : Request) : Bool :=
  if ¬ s.authEnabled then false
  else if r.method = .options then false
  else if r.path ∈ authBypassPaths then false
  else if hasPrefix r.path (lit "/static/") ∨ hasPrefix r.path (lit "/_astro/") ∨
      r.path = lit "/favicon.svg" then false
  else true

def requiresCSRFCheck (r : Request) : Bool :=
  if r.method ∉ [Method.post, .put, .delete, .patch] then false
  else if ¬ hasPrefix r.path (lit "/api/") then false
  else r.headerGet (lit "Authorization") = []

def validateCSRFToken (s : AuthServer) (now : Int) (r : Request) : Bool :=
  match s.sessionManager with
  | none => false
  | some m =>
    let sessionToken := sessionTokenFromRequest r
    if sessionToken = [] then false
    else
      let expected := m.csrfToken now sessionToken
      if expected = [] then false
      else
        let provided := r.headerGet (lit "X-CSRF-Token")
        if provided = [] then false else expected = provided

def hasBasicCredentials (s : AuthServer) : Bool :=
  s.basicUser ≠ [] ∧ (s.basicPass ≠ [] ∨ s.passwordHash ≠ [])

variable (lower : Nat → Nat)

def hasBasicAttempt (r : Request) : Bool :=
  hasPrefix (toLower lower (trimSpace (r.headerGet (lit "Authorization")))) (lit "basic ")

def shouldSendBasicChallenge (r : Request) : Bool :=
  let acceptsHTML := contains (toLower lower (r.headerGet (lit "Accept"))) (lit "text/html")
  let hxRequest := equalFold (r.headerGet (lit "HX-Request")) (lit "true")
  !acceptsHTML && !hxRequest

def acceptsHTML (r : Request) : Bool :=
  let accept := toLower lower (r.headerGet (lit "Accept"))
  if accept = [] then true
  else contains accept (lit "text/html") || contains accept (lit "*/*")

def shouldRedirectToLogin (r : Request) : Bool :=
  if hasPrefix r.path (lit "/api/") then false
  else if r.method ≠ .get ∧ r.method ≠ .head then false
  else acceptsHTML lower r

def sanitizeRedirectTarget (next : GoString) : GoString :=
  let next := trimSpace next
  if next = [] then lit "/"
  else if ¬ hasPrefix next (lit "/") then lit "/"
  else if hasPrefix next (lit "//") then lit "/"
  else if next.any fun b => [0x09, 0x0A, 0x0D, byte '%', 0x5C].contains b then lit "/"
  else next

/-- What the middleware does with a request: the next handler, a redirect to the login
page that comes back to `target`, or an error with or without a challenge. -/
inductive Outcome where
  | next
  | redirect (target : GoString)
  | error (status : Nat) (message : GoString) (challenge : Bool)
  deriving DecidableEq

def authMiddleware (s : AuthServer) (now : Int) (r : Request) : Outcome :=
  if ¬ s.isAuthRequired r then .next
  else if s.authorizeRequest compare now r then
    if requiresCSRFCheck r ∧ ¬ s.validateCSRFToken now r then
      .error 403 (lit "Invalid or missing CSRF token") false
    else .next
  else if shouldRedirectToLogin lower r then .redirect (sanitizeRedirectTarget r.requestURI)
  else
    .error 401 (lit "Unauthorized")
      (s.hasBasicCredentials && hasPrefix r.path (lit "/api/") && hasBasicAttempt lower r &&
        shouldSendBasicChallenge lower r)

end AuthServer

end

end GloryHole.Api
