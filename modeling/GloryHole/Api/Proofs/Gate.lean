import GloryHole.Api.Auth

/-!
# The gate before the API

Which changing requests reach their handler.  Whether a request is authorized and whether
it needs the session's CSRF token are decided apart, the second by the mere presence of an
Authorization header.  The gate opens for exactly the credentials it is meant for where
the two decisions fit together.
-/

namespace GloryHole.Api

open Go

namespace AuthServer

section

variable {compare : GoString → GoString → Bool} {lower : Nat → Nat} {s : AuthServer}
  {now : Int} {r : Request}

/-! ## Credentials -/

def KeyIn (s : AuthServer) (r : Request) (name : GoString) : Prop :=
  s.apiKey ≠ [] ∧ headerToken (trimSpace (r.headerGet name)) = s.apiKey

def CarriesAPIKey (s : AuthServer) (r : Request) : Prop :=
  s.KeyIn r s.authHeader ∨ s.KeyIn r (lit "Authorization")

def CarriesBasic (compare : GoString → GoString → Bool) (s : AuthServer) (r : Request) :
    Prop :=
  s.basicUser ≠ [] ∧
    ∃ user pass, r.basicAuth = some (user, pass) ∧ s.validateUserPasswordInput compare user pass

def CarriesCSRFToken (s : AuthServer) (r : Request) : Prop :=
  ∃ m session, s.sessionManager = some m ∧
    m.lookup (sessionTokenFromRequest r) = some session ∧ session.csrfToken ≠ [] ∧
    r.headerGet (lit "X-CSRF-Token") = session.csrfToken

def Credentials (compare : GoString → GoString → Bool) (s : AuthServer) (now : Int)
    (r : Request) : Prop :=
  s.CarriesAPIKey r ∨ s.CarriesBasic compare r ∨
    (s.hasValidSession now r ∧ s.CarriesCSRFToken r)

/-- Something else than the key stands in the configured header, so that Authorization is
not read. -/
def Shadowed (s : AuthServer) (r : Request) : Prop :=
  trimSpace (r.headerGet s.authHeader) ≠ [] ∧ ¬ s.KeyIn r s.authHeader

/-! ## The two decisions -/

theorem headerToken_nil : headerToken [] = [] := rfl

theorem not_keyIn_of_blank {name : GoString} (h : trimSpace (r.headerGet name) = []) :
    ¬ s.KeyIn r name := by
  rintro ⟨hkey, htoken⟩
  rw [h, headerToken_nil] at htoken
  exact hkey htoken.symm

theorem headerGet_congr {name name' : GoString} (h : equalFold name name') :
    r.headerGet name = r.headerGet name' := by
  have hmap : name.map asciiLower = name'.map asciiLower := by simpa [equalFold] using h
  simp [Request.headerGet, equalFold, hmap]

/-- `extractAPIKey` finds the key where it stands, unless it is shadowed. -/
theorem extractAPIKey_eq_apiKey_iff :
    (s.apiKey ≠ [] ∧ extractAPIKey r s.authHeader ≠ [] ∧
        extractAPIKey r s.authHeader = s.apiKey) ↔
      s.CarriesAPIKey r ∧ ¬ s.Shadowed r := by
  by_cases hblank : trimSpace (r.headerGet s.authHeader) = []
  · have hkey := not_keyIn_of_blank (s := s) hblank
    by_cases hheader : equalFold s.authHeader (lit "Authorization")
    · have hauth : ¬ s.KeyIn r (lit "Authorization") :=
        not_keyIn_of_blank (by rw [← headerGet_congr hheader]; exact hblank)
      simp [extractAPIKey, hblank, hheader, CarriesAPIKey, hkey, hauth]
    · have hextract : extractAPIKey r s.authHeader =
          headerToken (trimSpace (r.headerGet (lit "Authorization"))) := by
        by_cases hauth : trimSpace (r.headerGet (lit "Authorization")) = []
        · simp [extractAPIKey, hblank, hheader, hauth, headerToken_nil]
        · simp [extractAPIKey, hblank, hheader, hauth]
      have hcarries : s.CarriesAPIKey r ↔ s.KeyIn r (lit "Authorization") := by
        simp [CarriesAPIKey, hkey]
      have hshadowed : ¬ s.Shadowed r := fun h => h.1 hblank
      rw [hextract, hcarries, KeyIn]
      grind
  · have hextract : extractAPIKey r s.authHeader =
        headerToken (trimSpace (r.headerGet s.authHeader)) := by
      simp [extractAPIKey, hblank]
    rw [hextract]
    simp only [CarriesAPIKey, Shadowed, KeyIn]
    grind

theorem authorizeRequest_iff :
    s.authorizeRequest compare now r ↔
      s.hasValidSession now r ∨ (s.CarriesAPIKey r ∧ ¬ s.Shadowed r) ∨
        s.CarriesBasic compare r := by
  rw [← extractAPIKey_eq_apiKey_iff]
  unfold authorizeRequest CarriesBasic
  cases r.basicAuth with
  | none => grind
  | some credentials =>
    obtain ⟨user, pass⟩ := credentials
    simp only [Option.some.injEq, Prod.mk.injEq]
    grind

theorem validate_iff {m : SessionManager} {token : GoString} :
    m.validate now token ↔
      token ≠ [] ∧ ∃ session, m.lookup token = some session ∧ ¬ session.expires < now := by
  unfold SessionManager.validate
  grind

theorem csrfToken_eq_iff {m : SessionManager} {token csrf : GoString} (hcsrf : csrf ≠ []) :
    m.csrfToken now token = csrf ↔
      token ≠ [] ∧ ∃ session, m.lookup token = some session ∧ ¬ session.expires < now ∧
        session.csrfToken = csrf := by
  unfold SessionManager.csrfToken
  grind

/-- A CSRF token that is accepted belongs to a session that is valid. -/
theorem validateCSRFToken_iff :
    s.validateCSRFToken now r ↔ s.hasValidSession now r ∧ s.CarriesCSRFToken r := by
  unfold validateCSRFToken hasValidSession CarriesCSRFToken
  cases s.sessionManager with
  | none => simp
  | some m =>
    simp only [Option.some.injEq, exists_and_left, exists_eq_left', validate_iff]
    by_cases hprovided : r.headerGet (lit "X-CSRF-Token") = []
    · grind
    · have hexpected := @csrfToken_eq_iff now m (sessionTokenFromRequest r) _ hprovided
      grind

theorem authMiddleware_next_iff (hrequired : s.isAuthRequired r) :
    s.authMiddleware compare lower now r = .next ↔
      s.authorizeRequest compare now r ∧ (requiresCSRFCheck r → s.validateCSRFToken now r) := by
  unfold authMiddleware
  grind

/-! ## Changing requests to the API -/

theorem isAuthRequired_api (henabled : s.authEnabled) (hmethod : r.method ≠ .options)
    (hpath : hasPrefix r.path (lit "/api/")) (hbypass : r.path ∉ authBypassPaths) :
    s.isAuthRequired r := by
  obtain ⟨rest, hrest⟩ := List.isPrefixOf_iff_prefix.mp hpath
  have hstatic : hasPrefix r.path (lit "/static/") = false := by
    rw [← hrest]
    simp [hasPrefix, lit, List.isPrefixOf]
  have hastro : hasPrefix r.path (lit "/_astro/") = false := by
    rw [← hrest]
    simp [hasPrefix, lit, List.isPrefixOf]
  have hicon : r.path ≠ lit "/favicon.svg" := by
    rw [← hrest]
    simp [lit]
  simp [isAuthRequired, henabled, hmethod, hbypass, hstatic, hastro, hicon]

theorem requiresCSRFCheck_api (hmethod : r.method ∈ [Method.post, .put, .delete, .patch])
    (hpath : hasPrefix r.path (lit "/api/")) :
    requiresCSRFCheck r ↔ r.headerGet (lit "Authorization") = [] := by
  simp [requiresCSRFCheck, hmethod, hpath]

/-- Where the two decisions fit together.  Without an Authorization header a key in its own
header needs a session and its token beside it; with one, a session needs no token, and a
key in Authorization can be shadowed. -/
def Fits (compare : GoString → GoString → Bool) (s : AuthServer) (now : Int) (r : Request) :
    Prop :=
  if r.headerGet (lit "Authorization") = [] then
    s.KeyIn r s.authHeader → s.hasValidSession now r ∧ s.CarriesCSRFToken r
  else
    (s.hasValidSession now r →
        s.CarriesCSRFToken r ∨ s.CarriesAPIKey r ∨ s.CarriesBasic compare r) ∧
      (s.CarriesAPIKey r →
        ¬ s.Shadowed r ∨ s.hasValidSession now r ∨ s.CarriesBasic compare r)

end

variable (compare : GoString → GoString → Bool) (lower : Nat → Nat) (s : AuthServer)
  (now : Int) (r : Request)

/-- A changing request to a path of the API reaches its handler exactly when it carries
credentials, in exactly the requests where the two decisions fit together. -/
theorem authMiddleware_exact_iff (henabled : s.authEnabled)
    (hmethod : r.method ∈ [Method.post, .put, .delete, .patch])
    (hpath : hasPrefix r.path (lit "/api/")) (hbypass : r.path ∉ authBypassPaths) :
    (s.authMiddleware compare lower now r = .next ↔ s.Credentials compare now r) ↔
      s.Fits compare now r := by
  have hoptions : r.method ≠ .options := by
    intro h
    rw [h] at hmethod
    exact absurd hmethod (by decide)
  rw [authMiddleware_next_iff (isAuthRequired_api henabled hoptions hpath hbypass),
    requiresCSRFCheck_api hmethod hpath, authorizeRequest_iff, validateCSRFToken_iff]
  unfold Credentials Fits
  by_cases hauth : r.headerGet (lit "Authorization") = []
  · have hblank : trimSpace (r.headerGet (lit "Authorization")) = [] := by rw [hauth]; rfl
    have hkey : s.CarriesAPIKey r ↔ s.KeyIn r s.authHeader := by
      simp [CarriesAPIKey, not_keyIn_of_blank hblank]
    have hbasic : ¬ s.CarriesBasic compare r := by
      rintro ⟨-, user, pass, hbasic, -⟩
      have hscheme : equalFold (List.take 6 []) (lit "Basic ") = false := by decide
      rw [Request.basicAuth, hauth, hscheme] at hbasic
      cases hbasic
    have hshadowed : s.Shadowed r → ¬ s.KeyIn r s.authHeader := fun h => h.2
    rw [if_pos hauth, hkey]
    grind
  · rw [if_neg hauth]
    grind

/-! ## Requests the decisions do not fit -/

def keyedServer : AuthServer :=
  { authEnabled := true
    authHeader := lit "x-api-key"
    apiKey := lit "k3y"
    sessionManager := some [(lit "cookie", ⟨lit "admin", lit "csrf", 100⟩)] }

def purge (header cookies : List (GoString × GoString)) : Request :=
  { method := .post, path := lit "/api/cache/purge", header := header, cookies := cookies }

def keyInAuthorization : Request := purge [(lit "Authorization", lit "Bearer k3y")] []

def keyInOwnHeader : Request := purge [(lit "X-API-Key", lit "k3y")] []

def sessionWithAuthorization : Request :=
  purge [(lit "Authorization", lit "x")] [(lit "gh_session", lit "cookie")]

theorem authMiddleware_exact_iff_keyInAuthorization :
    (keyedServer.authMiddleware (fun _ _ => false) id 0 keyInAuthorization = .next ↔
        keyedServer.Credentials (fun _ _ => false) 0 keyInAuthorization) ↔
      keyedServer.Fits (fun _ _ => false) 0 keyInAuthorization :=
  authMiddleware_exact_iff (fun _ _ => false) id keyedServer 0 keyInAuthorization rfl (by decide)
    (by decide) (by decide)

/-- The key in its own header is refused for want of a CSRF token, although it needs no
session; a session with any Authorization header at all passes without its token. -/
theorem authMiddleware_not_exact :
    (keyedServer.CarriesAPIKey keyInOwnHeader ∧
        keyedServer.authMiddleware (fun _ _ => false) id 0 keyInOwnHeader =
          .error 403 (lit "Invalid or missing CSRF token") false) ∧
      ¬ keyedServer.Credentials (fun _ _ => false) 0 sessionWithAuthorization ∧
        keyedServer.authMiddleware (fun _ _ => false) id 0 sessionWithAuthorization = .next := by
  refine ⟨⟨Or.inl ⟨by decide, by decide⟩, by decide⟩, ?_, by decide⟩
  rintro ((⟨-, h⟩ | ⟨-, h⟩) | ⟨h, -⟩ | ⟨-, m, session, -, -, hne, h⟩)
  · exact absurd h (by decide)
  · exact absurd h (by decide)
  · exact absurd h (by decide)
  · exact hne h.symm

end AuthServer

end GloryHole.Api
