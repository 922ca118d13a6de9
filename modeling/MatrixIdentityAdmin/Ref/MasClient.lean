import MatrixIdentityAdmin.Lib.Join
import MatrixIdentityAdmin.Ref.Calls
import MatrixIdentityAdmin.Ref.Endpoints
import MatrixIdentityAdmin.Ref.Users

/-!
# The sessions of `clients/mas.rs`

`MasClient` one level below the calls of `AuthService`: what `list_sessions` and
`finish_session` send, and what they make of the responses. An exchange is
answered with the decoded body, or with the error its transport, its status or
its decoding ended in; the token comes from the client's own cache.

`list_sessions` awaits its two fetches together, so it is a relation here: which
of the two is ahead at any moment is not for the client to say.
-/

namespace MatrixIdentityAdmin.Ref

open MatrixIdentityAdmin.Lib

namespace MasClient

/-- `ApiSessionAttributes`. -/
structure ApiSessionAttributes where
  finishedAt : Option String
deriving DecidableEq, Repr

/-- `ApiSessionResource`. -/
structure ApiSessionResource where
  id : String
  resourceType : String
  attributes : ApiSessionAttributes
deriving DecidableEq, Repr

/-- The calls behind `list_sessions` and `finish_session`. -/
inductive HttpCall where
  | adminToken
  | getSessions (url token : String) (query : List (String × String))
  | post (url token : String)
deriving DecidableEq, Repr

abbrev HttpCall.Ret : HttpCall → Type
  | .adminToken => String
  | .getSessions .. => List ApiSessionResource
  | .post .. => Unit

abbrev HttpAnswer (c : HttpCall) : Type := Result c.Ret

abbrev Http (α : Type) : Type := Prog HttpCall HttpAnswer α

/-- `MasClient::admin_token`. -/
def adminToken : Http (Result String) := Prog.send HttpCall.adminToken

/-- A `GET` whose body is an `ApiListResponse<ApiSessionResource>`. -/
def getSessions (url token : String) (query : List (String × String)) :
    Http (Result (List ApiSessionResource)) :=
  Prog.send (HttpCall.getSessions url token query)

def post (url token : String) : Http (Result Unit) :=
  Prog.send (HttpCall.post url token)

/-- The `MasSession` of a resource. -/
def toSession (r : ApiSessionResource) : MasSession where
  id := r.id
  sessionType := r.resourceType
  finishedAt := r.attributes.finishedAt

section

variable (config : ClientConfig)

/-- The query of a session list. -/
def sessionQuery (masUserId : String) : List (String × String) :=
  [("filter[user]", masUserId), ("filter[status]", "active"),
    ("page[first]", "50")]

/-- `MasClient::fetch_sessions`. -/
def fetchSessions (endpoint masUserId : String) :
    Http (Result (List MasSession)) :=
  adminToken.andThen fun token =>
    (getSessions (url config s!"/api/admin/v1/{endpoint}") token
      (sessionQuery masUserId)).andThen fun data =>
        return .ok (data.map toSession)

/-- `list_sessions` once both fetches have come to an end. -/
def listed (compatResult oauth2Result : Result (List MasSession)) :
    SessionListResult :=
  let (sessions, warnings) : List MasSession × List String :=
    match compatResult with
    | .ok s => (s, [])
    | .error e => ([], [s!"Failed to fetch compat sessions: {e}"])
  match oauth2Result with
  | .ok s => ⟨sessions ++ s, warnings⟩
  | .error e =>
      ⟨sessions, warnings ++ [s!"Failed to fetch OAuth2 sessions: {e}"]⟩

/-- `MasClient::list_sessions`: a run of it, by what the two fetches end in. -/
def ListSessions (masUserId : String) (t : List (Event HttpCall HttpAnswer))
    (compatResult oauth2Result : Result (List MasSession))
    (result : Result SessionListResult) : Prop :=
  Prog.JoinRuns (fetchSessions config "compat-sessions" masUserId)
      (fetchSessions config "oauth2-sessions" masUserId) t compatResult
      oauth2Result ∧
    result = .ok (listed compatResult oauth2Result)

/-- `MasClient::finish_session`. -/
def finishSession (sessionId sessionType : String) : Http (Result Unit) :=
  adminToken.andThen fun token =>
    match finishPath sessionId sessionType with
    | .error e => return .error e
    | .ok path => post (url config path) token

end

end MasClient

/-! ## The sessions of the detail page -/

/-- `models::unified::UnifiedSession`. -/
structure UnifiedSession where
  id : String
  sessionType : String
  state : String
deriving DecidableEq, Repr

/-- The row `UserService::get_detail` makes of a session. -/
def UserService.unifiedSession (s : MasSession) : UnifiedSession where
  id := s.id
  sessionType := s.sessionType
  state := if s.finishedAt.isSome then "finished" else "active"

end MatrixIdentityAdmin.Ref
