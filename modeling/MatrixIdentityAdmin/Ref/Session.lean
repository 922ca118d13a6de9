import MatrixIdentityAdmin.Ref.Handlers
import MatrixIdentityAdmin.Ref.Json
import MatrixIdentityAdmin.Ref.Text

/-!
# `auth/session.rs`, `auth/oidc.rs`

The documents in the two private cookies, and what is read off an ID token.
To print and to parse JSON, and base64, are libraries and a parameter; what
the derived implementations of `Serialize` and `Deserialize` do with a document
is written out. Whether a text comes out as a session is a matter of which
fields the document has.
-/

namespace MatrixIdentityAdmin.Ref

/-- `serde_json` and `base64::URL_SAFE_NO_PAD`. -/
structure Codecs where
  toString : Value → Except String String
  fromStr : String → Except String Value
  fromSlice : ByteArray → Except String Value
  encode : ByteArray → String
  decode : String → Option ByteArray

/-! ## Deriving `Deserialize` -/

namespace Value

/-- The fields of a struct: in an object they go by their names, in an array
by their places. -/
def structFields (names : List String) : Value → Option (List (Option Value))
  | .object members =>
      if ((members.map Prod.fst).filter names.contains).Nodup then
        some (names.map fun name => get name members)
      else none
  | .array items =>
      if items.length = names.length then some (items.map some) else none
  | _ => none

/-- A field of type `String`. -/
def readString : Option Value → Option String
  | some v => v.asStr
  | none => none

/-- A field of type `Option<String>`. -/
def readOption : Option Value → Option (Option String)
  | none | some .null => some none
  | some v => v.asStr.map some

/-- A field of type `Vec<String>`. -/
def readStrings : Option Value → Option (List String)
  | some v => v.asArray.bind fun items => items.mapM asStr
  | none => none

end Value

open Value

/-! ## The two cookies -/

def sessionCookie : String := "session"

def oidcFlowCookie : String := "oidc_flow"

/-- `AdminSession`. -/
structure AdminSession where
  subject : String
  username : String
  email : Option String
  roles : List String
  csrfToken : String
deriving DecidableEq, Repr

namespace AdminSession

/-- What the handlers read of it. -/
def admin (session : AdminSession) : Admin :=
  ⟨session.subject, session.username, session.csrfToken⟩

def toValue (session : AdminSession) : Value :=
  .object [("subject", .string session.subject),
    ("username", .string session.username),
    ("email", match session.email with
      | some email => .string email
      | none => .null),
    ("roles", .array (session.roles.map .string)),
    ("csrf_token", .string session.csrfToken)]

def fromValue (v : Value) : Option AdminSession :=
  match v.structFields ["subject", "username", "email", "roles", "csrf_token"] with
  | some [subject, username, email, roles, csrfToken] => do
      let subject ← readString subject
      let username ← readString username
      let email ← readOption email
      let roles ← readStrings roles
      let csrfToken ← readString csrfToken
      return ⟨subject, username, email, roles, csrfToken⟩
  | _ => none

end AdminSession

/-- `OidcFlowState`. -/
structure OidcFlowState where
  csrfToken : String
  pkceVerifier : String
  nonce : String
deriving DecidableEq, Repr

namespace OidcFlowState

def toValue (flow : OidcFlowState) : Value :=
  .object [("csrf_token", .string flow.csrfToken),
    ("pkce_verifier", .string flow.pkceVerifier), ("nonce", .string flow.nonce)]

def fromValue (v : Value) : Option OidcFlowState :=
  match v.structFields ["csrf_token", "pkce_verifier", "nonce"] with
  | some [csrfToken, pkceVerifier, nonce] => do
      let csrfToken ← readString csrfToken
      let pkceVerifier ← readString pkceVerifier
      let nonce ← readString nonce
      return ⟨csrfToken, pkceVerifier, nonce⟩
  | _ => none

end OidcFlowState

namespace Codecs

variable (codecs : Codecs)

/-- `serde_json::to_string`, as the handlers use it. -/
def print (v : Value) : Result String := (codecs.toString v).mapError .internal

/-- `serde_json::from_str` of a type that reads a document with `fromValue`. -/
def parse {α : Type} (fromValue : Value → Option α) (text : String) : Option α :=
  (codecs.fromStr text).toOption.bind fromValue

/-! ## The ID token -/

/-- `decode_jwt_payload`. An ID token is its raw text. -/
def decodeJwtPayload (idToken : String) : Option Value := do
  let payload ← (Text.split idToken '.')[1]?
  let bytes ← codecs.decode payload
  (codecs.fromSlice bytes).toOption

end Codecs

/-- `AuthenticatedClaims`. -/
structure AuthenticatedClaims where
  subject : String
  username : String
  email : Option String
  roles : List String
deriving DecidableEq, Repr

/-- What `complete_auth` takes out of a verified token: the subject is the one
the library hands over, the rest is read off the payload. -/
def AuthenticatedClaims.ofPayload (subject : String) (extra : Option Value) :
    AuthenticatedClaims where
  subject := subject
  username :=
    ((extra.bind (Value.field "preferred_username")).bind asStr).getD subject
  email := (extra.bind (Value.field "email")).bind asStr
  roles :=
    match ((extra.bind (Value.field "realm_access")).bind
        (Value.field "roles")).bind asArray with
    | some items => items.filterMap asStr
    | none => []

/-- The session `callback` makes of the claims. -/
def AuthenticatedClaims.session (claims : AuthenticatedClaims)
    (csrfToken : String) : AdminSession :=
  ⟨claims.subject, claims.username, claims.email, claims.roles, csrfToken⟩

end MatrixIdentityAdmin.Ref
