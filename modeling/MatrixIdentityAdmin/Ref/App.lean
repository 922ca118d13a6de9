import MatrixIdentityAdmin.Ref.AccountHandlers
import MatrixIdentityAdmin.Ref.Invite
import MatrixIdentityAdmin.Ref.Policy
import MatrixIdentityAdmin.Ref.Session
import MatrixIdentityAdmin.Ref.Templates

/-!
# What a request can ask for

A request handler uses the services, the database, the templates file, the
cookies of its browser and the identity provider. Each of these is an
enumeration of calls of its own, and a request is a program over all of them.

The private cookies are seen from behind the cookie jar: the handler is given
the text that was encrypted, or nothing. The OIDC library is asked like
everybody else, for it draws random numbers and looks at the clock and at the
keys of the provider.
-/

namespace MatrixIdentityAdmin.Ref

open MatrixIdentityAdmin.Lib

namespace App

/-- What `authorize_url` and `PkceCodeChallenge::new_random_sha256` draw. -/
structure AuthorizationRequest where
  authUrl : String
  csrfToken : String
  pkceVerifier : String
  nonce : String
deriving DecidableEq, Repr

/-- Why there is no answer from the token endpoint. -/
inductive ExchangeError where
  | notConfigured (e : String)
  | failed (e : String)
deriving DecidableEq, Repr

/-- The cookie jar, the generator of tokens and the OIDC library. The answer
of `exchangeCode` is the ID token of the response, that of `claims` the subject
of a token that was verified. -/
inductive SessionCall where
  | getCookie (name : String)
  | addCookie (name value : String)
  | removeCookie (name : String)
  | generateToken
  | authorizeUrl
  | exchangeCode (code pkceVerifier : String)
  | claims (idToken nonce : String)
deriving DecidableEq, Repr

abbrev SessionCall.Answer : SessionCall → Type
  | .getCookie _ => Option String
  | .addCookie .. | .removeCookie _ => Unit
  | .generateToken => String
  | .authorizeUrl => AuthorizationRequest
  | .exchangeCode .. => Except ExchangeError (Option String)
  | .claims .. => Except String String

/-- `models::synapse::RoomListEntry`. -/
structure RoomListEntry where
  roomId : String
  name : Option String
  canonicalAlias : Option String
deriving DecidableEq, Repr

/-- `models::synapse::RoomList`. -/
structure RoomList where
  rooms : List RoomListEntry
  nextBatch : Option String
deriving DecidableEq, Repr

/-- `listRooms` is the one method of `MatrixService` no workflow uses. -/
inductive AppCall where
  | session (c : SessionCall)
  | service (c : Call)
  | onboarding (c : InviteCall)
  | store (c : StoreCall)
  | templates (c : Templates.TemplateCall)
  | listRooms (limit : UInt32) (start : Option String)
deriving DecidableEq, Repr

abbrev AppCall.Answer : AppCall → Type
  | .session c => c.Answer
  | .service c => Ref.Answer c
  | .onboarding c => c.Answer
  | .store c => c.Answer
  | .templates c => c.Answer
  | .listRooms .. => Result RoomList

/-- An `async fn` of `handlers/`. -/
abbrev Handler (α : Type) : Type := Prog AppCall AppCall.Answer α

def session (c : SessionCall) : Handler c.Answer := Prog.send (AppCall.session c)

def service {α : Type} (p : Ref.Async α) : Handler α := p.lift AppCall.service

def onboarding {α : Type} (p : InviteUser.Async α) : Handler α :=
  p.lift AppCall.onboarding

def store {α : Type} (p : Store α) : Handler α := p.lift AppCall.store

def templates {α : Type} (p : Templates.Task α) : Handler α :=
  p.lift AppCall.templates

/-- `MatrixService::list_rooms`. -/
def listRooms (limit : UInt32) (start : Option String) : Handler (Result RoomList) :=
  Prog.send (AppCall.listRooms limit start)

/-- What a handler answers with, before it is rendered. -/
inductive Response where
  | redirect (location : String)
  | failed (e : AppError)
  | preview (keycloakId csrfToken : String) (p : ReconcilePreview)
  | bulkResult (username : String) (r : BulkReconcileResult)
  | json (status : UInt16) (ok : Bool) (message : String)
deriving DecidableEq, Repr

/-- A `Result<Redirect, AppError>`. -/
def redirecting : Result String → Response
  | .ok location => .redirect location
  | .error e => .failed e

/-- The configuration, and the libraries the handlers use. -/
structure Config extends AppState where
  requiredAdminRole : String
  botApiSecret : String
  inviteAllowedDomains : Option (List String)
  codecs : Codecs
  serde : Templates.SerdeJson
  tables : CaseTables

variable (config : Config)

/-- The extractor `AuthenticatedAdmin`, and the handler behind it. -/
def authenticated (handler : Admin → Handler (Option Response)) :
    Handler (Option Response) := do
  match ← session (.getCookie sessionCookie) with
  | none => return some (.redirect "/auth/login")
  | some text =>
      match config.codecs.parse AdminSession.fromValue text with
      | none => return some (.redirect "/auth/login")
      | some session => handler session.admin

/-! ## `handlers/auth.rs` -/

/-- `OidcClient::begin_auth`. -/
def beginAuth : Handler (String × OidcFlowState) := do
  let r ← session .authorizeUrl
  return (r.authUrl,
    ⟨r.csrfToken, config.codecs.encode r.pkceVerifier.toUTF8, r.nonce⟩)

/-- The end of `complete_auth`, with a token that was verified. -/
def requireRole (subject idToken : String) : Result AuthenticatedClaims :=
  let claims := AuthenticatedClaims.ofPayload subject
    (config.codecs.decodeJwtPayload idToken)
  if !claims.roles.contains config.requiredAdminRole then
    .error (.auth
      s!"Access denied: required role '{config.requiredAdminRole}' not present")
  else .ok claims

/-- `complete_auth` from the request to the token endpoint on. -/
def redeemCode (code pkceVerifier nonce : String) :
    Handler (Result AuthenticatedClaims) := do
  match ← session (.exchangeCode code pkceVerifier) with
  | .error (.notConfigured e) =>
      return .error (.auth s!"Token endpoint not configured: {e}")
  | .error (.failed e) => return .error (.auth s!"Token exchange failed: {e}")
  | .ok none => return .error (.auth "No ID token in response")
  | .ok (some idToken) =>
      match ← session (.claims idToken nonce) with
      | .error e => return .error (.auth s!"ID token validation failed: {e}")
      | .ok subject => return requireRole config subject idToken

/-- `OidcClient::complete_auth`. -/
def completeAuth (code : String) (flowState : OidcFlowState)
    (returnedState : String) : Handler (Result AuthenticatedClaims) :=
  if returnedState ≠ flowState.csrfToken then
    return .error (.auth "OIDC state mismatch")
  else
    match config.codecs.decode flowState.pkceVerifier with
    | none => return .error (.auth "Invalid PKCE verifier encoding")
    | some bytes =>
        match String.fromUTF8? bytes with
        | none => return .error (.auth "Invalid PKCE verifier")
        | some pkceVerifier => redeemCode config code pkceVerifier flowState.nonce

/-- `handlers::auth::login`. -/
def login : Handler (Result String) := do
  let (authUrl, flowState) ← beginAuth config
  match config.codecs.print flowState.toValue with
  | .error e => return .error e
  | .ok value => do
      session (.addCookie oidcFlowCookie value)
      return .ok authUrl

/-- The end of `handlers::auth::callback`: a session for the claims. -/
def openSession (claims : AuthenticatedClaims) : Handler (Result String) := do
  let csrfToken ← session .generateToken
  match config.codecs.print (claims.session csrfToken).toValue with
  | .error e => return .error e
  | .ok value => do
      session (.removeCookie oidcFlowCookie)
      session (.addCookie sessionCookie value)
      return .ok "/"

/-- `handlers::auth::callback`. -/
def callback (code state : String) : Handler (Result String) := do
  match ← session (.getCookie oidcFlowCookie) with
  | none => return .error (.auth "Missing OIDC flow state cookie")
  | some text =>
      match config.codecs.parse OidcFlowState.fromValue text with
      | none => return .error (.auth "Invalid OIDC flow state")
      | some flowState =>
          (completeAuth config code flowState state).andThen fun claims =>
            openSession config claims

/-- `handlers::auth::logout`. -/
def logout (admin : Admin) (csrf : String) : Handler (Result String) :=
  admin.checked csrf do
    session (.removeCookie sessionCookie)
    return .ok "/auth/login"

end App

end MatrixIdentityAdmin.Ref
