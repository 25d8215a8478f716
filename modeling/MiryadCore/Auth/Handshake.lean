import MiryadCore.Auth.Cookie
import MiryadCore.Control.Logged

/-!
# The routes of a login, and those that ask for a session

A login leaves a sealed cookie with what it generated, which its callback needs
to exchange the code.  A visit answers a response, or gives its route an
identity; what it asks and what it seals is logged.
-/

namespace MiryadCore.Auth

open Users (DbErr)

def AuthError.display (dbText : DbErr → String) : AuthError → String
  | .notAuthenticated => "MRD-AUTH-001: not authenticated (no session cookie)"
  | .invalidSession => "MRD-AUTH-002: invalid or expired session"
  | .invalidCallback => "MRD-AUTH-012: invalid or missing OIDC callback state"
  | .csrfMismatch => "MRD-AUTH-013: CSRF state mismatch"
  | .oidc text => "MRD-AUTH-003: OIDC error: " ++ text
  | .invalidToken => "MRD-AUTH-014: invalid or unknown API token"
  | .tokenExpired => "MRD-AUTH-015: expired API token"
  | .tokenHashConflict =>
      "MRD-AUTH-017: token hash already provisioned for another subject"
  | .invalidBearer => "MRD-AUTH-019: invalid bearer token"
  | .bearerExpired => "MRD-AUTH-020: expired bearer token"
  | .database cause => "MRD-AUTH-016: database error: " ++ dbText cause
  | .internal text => "MRD-AUTH-018: internal error: " ++ text

def AuthError.status : AuthError → ℕ
  | .notAuthenticated => 401
  | .invalidSession => 401
  | .invalidToken => 401
  | .tokenExpired => 401
  | .invalidCallback => 400
  | .csrfMismatch => 400
  | .oidc _ => 502
  | .tokenHashConflict => 409
  | .invalidBearer => 401
  | .bearerExpired => 401
  | .database _ => 500
  | .internal _ => 500

end MiryadCore.Auth

namespace MiryadCore.Auth.Handshake

open Users (DbErr)

/-- What `authorization_url` generates. -/
structure Authorization where
  url : String
  csrf : String
  nonce : String
  pkceVerifier : String
  deriving DecidableEq, Repr

structure OidcLoginResult where
  identity : OidcIdentity
  groups : List String
  deriving DecidableEq, Repr

structure CallbackParams where
  code : String
  state : String
  deriving DecidableEq, Repr

structure MiryadAuthState where
  codecs : Codecs
  postLoginRedirect : String
  postLogoutRedirect : String
  secureCookies : Bool
  dbText : DbErr → String

/-- What is answered to a visit outside of the crate. -/
structure Conditions (auth : MiryadAuthState) where
  authorization : Authorization
  exchangeCode : String → String → String → Except AuthError OidcLoginResult
  resolveUser : String → Option String → Except DbErr ℤ
  syncGroupMemberships : ℤ → List String → Except DbErr Unit
  sealNonce : auth.codecs.Nonce
  now : Option ℕ

inductive Event where
  | generated (authorization : Authorization)
  | exchanged (code nonce pkceVerifier : String)
      (result : Except AuthError OidcLoginResult)
  | sealed (name value : String)

structure Response where
  status : ℕ
  location : Option String
  setCookies : List String
  body : String
  deriving DecidableEq, Repr

abbrev Code (α : Type) : Type :=
  Logged AuthError Event α

def PENDING_COOKIE_NAME : String := "miryad_oidc_pending"

def intoResponse (dbText : DbErr → String) (error : AuthError) :
    Response :=
  { status := error.status, location := none, setCookies := []
    body := error.display dbText }

/-- A value that `HeaderValue` accepts, byte by byte in UTF-8. -/
def isHeaderValue (text : String) : Bool :=
  text.toList.all fun char =>
    (32 ≤ char.toNat ∧ char.toNat ≠ 127) ∨ char.toNat = 9

/-- The builder of a `302`. -/
def found (location : String) (setCookies : List String) :
    Except AuthError Response :=
  if isHeaderValue location ∧ setCookies.all isHeaderValue then
    .ok { status := 302, location := some location, setCookies, body := "" }
  else .error (.oidc "failed to parse header value")

section Handlers

variable (auth : MiryadAuthState) (conditions : Conditions auth)

def handlerLogin : Code Response := do
  let authorization ← Logged.emit (.generated conditions.authorization)
    (.ok conditions.authorization)
  let pendingValue := authorization.csrf ++ ":" ++ authorization.nonce ++ ":" ++
    authorization.pkceVerifier
  let encrypted ← Logged.emit (.sealed PENDING_COOKIE_NAME pendingValue)
    (.ok (auth.codecs.encrypt conditions.sealNonce PENDING_COOKIE_NAME
      pendingValue))
  Logged.lift (found authorization.url
    [PENDING_COOKIE_NAME ++ "=" ++ encrypted ++ "; HttpOnly" ++
      secureAttr auth.secureCookies ++ "; SameSite=Lax; Path=/; Max-Age=300"])

/-- `splitn(3, ':')`, where it has three pieces. -/
def pendingPieces (value : String) : Option (String × String × String) := do
  let (csrf, rest) ← splitOnce ':' value.toList
  let (nonce, pkceVerifier) ← splitOnce ':' rest
  return (String.ofList csrf, String.ofList nonce, String.ofList pkceVerifier)

/-- What follows the comparison of the states. -/
def concludeCallback (code nonce pkceVerifier : String) : Code Response := do
  let result := conditions.exchangeCode code nonce pkceVerifier
  let login ← Logged.emit (.exchanged code nonce pkceVerifier result) result
  let identity := login.identity
  let userId ← Logged.lift ((conditions.resolveUser identity.subject
    identity.email).mapError AuthError.database)
  let _ ← Logged.lift ((conditions.syncGroupMemberships userId
    login.groups).mapError AuthError.database)
  let setCookieMain ← Logged.emit
    (.sealed SESSION_COOKIE_NAME (auth.codecs.payload identity))
    (.ok (buildSetCookie auth.codecs conditions.sealNonce conditions.now
      identity auth.secureCookies))
  let setCookieClearPending := PENDING_COOKIE_NAME ++ "=; HttpOnly" ++
    secureAttr auth.secureCookies ++ "; SameSite=Lax; Path=/; Max-Age=0"
  Logged.lift (found auth.postLoginRedirect
    [setCookieMain, setCookieClearPending])

def handlerCallback (params : CallbackParams) (cookie : Option (List UInt8)) :
    Code Response := do
  let value ← Logged.lift ((findSealedCookie auth.codecs (cookie.bind toStr)
    PENDING_COOKIE_NAME).mapError fun _ => AuthError.invalidCallback)
  match pendingPieces value with
  | none => Logged.fail .invalidCallback
  | some (expectedCsrf, nonce, pkceVerifier) =>
      if params.state ≠ expectedCsrf then Logged.fail .csrfMismatch
      else concludeCallback auth conditions params.code nonce pkceVerifier

def handlerLogout : Code Response :=
  Logged.lift (found auth.postLogoutRedirect [clearCookie auth.secureCookies])

end Handlers

/-- A request.  The query of a callback may be refused before its handler, with a
text of `axum`. -/
inductive Visit where
  | login
  | callback (query : Except String CallbackParams)
      (cookie : Option (List UInt8))
  | logout
  | route (cookie : Option (List UInt8))

inductive Answer where
  | response (response : Response)
  | session (identity : OidcIdentity)
  deriving DecidableEq

/-- A visit that has been served. -/
structure Served where
  visit : Visit
  now : Option ℕ
  events : List Event
  answer : Answer

section Serving

variable (auth : MiryadAuthState)

/-- What the client gets of a handler. -/
def respond : Code Response → Answer
  | ⟨.ok response, _⟩ => .response response
  | ⟨.error error, _⟩ => .response (intoResponse auth.dbText error)

/-- The rejection of a query. -/
def badQuery (text : String) : Response :=
  { status := 400, location := none, setCookies := [], body := text }

def serve (visit : Visit) (conditions : Conditions auth) : Served :=
  match visit with
  | .login =>
      let code := handlerLogin auth conditions
      { visit, now := conditions.now, events := code.log
        answer := respond auth code }
  | .callback (.error text) _ =>
      { visit, now := conditions.now, events := []
        answer := .response (badQuery text) }
  | .callback (.ok params) cookie =>
      let code := handlerCallback auth conditions params cookie
      { visit, now := conditions.now, events := code.log
        answer := respond auth code }
  | .logout =>
      let code := handlerLogout auth
      { visit, now := conditions.now, events := code.log
        answer := respond auth code }
  | .route cookie =>
      { visit, now := conditions.now, events := []
        answer :=
          match extractSession auth.codecs conditions.now
              (cookie.bind toStr) with
          | .ok identity => .session identity
          | .error error =>
              .response (intoResponse auth.dbText error) }

@[simp]
theorem serve_visit (visit : Visit) (conditions : Conditions auth) :
    (serve auth visit conditions).visit = visit := by
  cases visit with
  | login => rfl
  | callback query cookie =>
      cases query with
      | error text => rfl
      | ok params => rfl
  | logout => rfl
  | route cookie => rfl

/-- The visits of a run, each with its own conditions. -/
abbrev Visits : Type :=
  List (Visit × Conditions auth)

def history (visits : Visits auth) : List Served :=
  visits.map fun (visit, conditions) => serve auth visit conditions

end Serving

end MiryadCore.Auth.Handshake
