import MatrixIdentityAdmin.Lib.Join
import MatrixIdentityAdmin.Ref.AuditLog
import MatrixIdentityAdmin.Ref.MasClient
import MatrixIdentityAdmin.Ref.Users

/-!
# `handlers/users.rs`: the page of one user

`UserService::get_detail` puts the page together from Keycloak and MAS, and the
handler adds what the audit log has about the user. Only the record itself must
be there; whatever else cannot be read is shown as if there were nothing of it.

The handler waits for the page and for the log at once, and `get_detail` for the
groups and the roles. Whose answer comes first is left to a schedule.
-/

namespace MatrixIdentityAdmin.Ref

open MatrixIdentityAdmin.Lib

/-- The calls behind the page: `IdentityProvider`, `AuthService` and
`AuditService`. -/
inductive DetailCall where
  | getUser (userId : String)
  | getUserGroups (userId : String)
  | getUserRoles (userId : String)
  | getUserByUsername (username : String)
  | listSessions (masUserId : String)
  | forUser (keycloakUserId : String) (limit : Int)
deriving DecidableEq, Repr

abbrev DetailCall.Ret : DetailCall → Type
  | .getUser _ => CanonicalUser
  | .getUserGroups _ | .getUserRoles _ => List String
  | .getUserByUsername _ => Option MasUser
  | .listSessions _ => SessionListResult
  | .forUser .. => List AuditLog

abbrev DetailAnswer (c : DetailCall) : Type := Result c.Ret

abbrev DetailExchange : Type := Event DetailCall DetailAnswer

abbrev Detailing (α : Type) : Type := Prog DetailCall DetailAnswer α

namespace IdentityProvider

def getUser (userId : String) : Detailing (Result CanonicalUser) :=
  Prog.send (DetailCall.getUser userId)

def getUserGroups (userId : String) : Detailing (Result (List String)) :=
  Prog.send (DetailCall.getUserGroups userId)

def getUserRoles (userId : String) : Detailing (Result (List String)) :=
  Prog.send (DetailCall.getUserRoles userId)

end IdentityProvider

namespace AuthService

def getUserByUsername (username : String) : Detailing (Result (Option MasUser)) :=
  Prog.send (DetailCall.getUserByUsername username)

def listSessions (masUserId : String) : Detailing (Result SessionListResult) :=
  Prog.send (DetailCall.listSessions masUserId)

end AuthService

/-- `AuditService::for_user`. -/
def AuditService.forUser (keycloakUserId : String) (limit : Int) :
    Detailing (Result (List AuditLog)) :=
  Prog.send (DetailCall.forUser keycloakUserId limit)

/-- `Result::unwrap_or_else`. -/
def unwrapOrElse {α : Type} (f : AppError → α) : Result α → α
  | .ok a => a
  | .error e => f e

/-- `IdentityMapper::map`. -/
def IdentityMapper.map (mapper : IdentityMapper) (canonical : CanonicalUser)
    (masUserId : Option String) : MappedIdentity where
  canonical := canonical
  inferredMatrixId := mapper.deriveMatrixId canonical.username
  correlationStatus := if masUserId.isSome then .confirmed else .inferred

/-- `models::unified::UnifiedUserDetail`. -/
structure UnifiedUserDetail where
  keycloakId : String
  username : String
  email : Option String
  firstName : Option String
  lastName : Option String
  enabled : Bool
  lifecycleState : LifecycleState
  groups : List String
  roles : List String
  matrixId : Option String
  correlationStatus : CorrelationStatus
  sessions : List UnifiedSession
deriving DecidableEq, Repr

namespace UserService

variable (mapper : IdentityMapper)

/-- The sessions of a MAS account, none where there is no account. -/
def sessionsOf : Option String → Detailing (List MasSession)
  | none => return []
  | some id => do
      let result ← AuthService.listSessions id
      let result := unwrapOrElse
        (fun e => ⟨[], [s!"MAS session list failed: {e}"]⟩) result
      return result.sessions

/-- What `get_detail` returns, once everything has been read or was not. -/
def assemble (canonical : CanonicalUser) (masUser : Option MasUser)
    (sessions : List MasSession) : UnifiedUserDetail :=
  let mapped := mapper.map canonical (masUser.map MasUser.id)
  { keycloakId := canonical.id
    username := canonical.username
    email := canonical.email
    firstName := canonical.firstName
    lastName := canonical.lastName
    enabled := canonical.enabled
    lifecycleState := deriveLifecycleState canonical.enabled
      canonical.requiredActions (masUser.bind MasUser.deactivatedAt)
    groups := canonical.groups
    roles := canonical.roles
    matrixId := mapper.deriveMatrixId canonical.username
    correlationStatus := mapped.correlationStatus
    sessions := sessions.map unifiedSession }

/-- `UserService::get_detail`. -/
def getDetail (schedule : List Bool) (userId : String) :
    Detailing (Result UnifiedUserDetail) :=
  (IdentityProvider.getUser userId).andThen fun canonical => do
    let (groupsResult, rolesResult) ← Prog.both schedule
      (IdentityProvider.getUserGroups userId) (IdentityProvider.getUserRoles userId)
    let canonical :=
      { canonical with
        groups := unwrapOrElse (fun _ => []) groupsResult
        roles := unwrapOrElse (fun _ => []) rolesResult }
    let masUser ← AuthService.getUserByUsername canonical.username
    let masUser := unwrapOrElse (fun _ => none) masUser
    let sessions ← sessionsOf (masUser.map MasUser.id)
    return .ok (assemble mapper canonical masUser sessions)

end UserService

namespace Users

/-- `DetailQuery`. -/
structure DetailQuery where
  notice : Option String
  warning : Option String
deriving DecidableEq, Repr

/-- `handlers::users::AuditEntry`. -/
structure AuditRow where
  timestamp : String
  action : String
  result : String
  adminUsername : String
deriving DecidableEq, Repr

def AuditRow.ofLog (l : AuditLog) : AuditRow where
  timestamp := l.timestamp
  action := l.action
  result := l.result
  adminUsername := l.adminUsername

/-- `DetailTemplate`. -/
structure DetailTemplate where
  username : String
  csrfToken : String
  currentPath : String
  user : UnifiedUserDetail
  auditLogs : List AuditRow
  notice : Option String
  warning : Option String
  synapseEnabled : Bool
  activeSessionCount : Nat
  finishedSessionCount : Nat
deriving DecidableEq, Repr

section

variable (state : AppState) (admin : Admin)

/-- What the page is rendered from. -/
def detailPage (query : DetailQuery) (user : UnifiedUserDetail)
    (auditLogs : Result (List AuditLog)) : DetailTemplate :=
  let active := user.sessions.countP fun s => s.state = "active"
  { username := admin.username
    csrfToken := admin.csrfToken
    currentPath := "/users"
    user := user
    auditLogs := (unwrapOrElse (fun _ => []) auditLogs).map AuditRow.ofLog
    notice := query.notice
    warning := query.warning
    synapseEnabled := state.synapse
    activeSessionCount := active
    finishedSessionCount := user.sessions.length - active }

/-- `handlers::users::detail` up to the rendering of its page. -/
def detail (schedule schedule' : List Bool) (keycloakId : String)
    (query : DetailQuery) : Detailing (Result DetailTemplate) := do
  let (user, auditLogs) ← Prog.both schedule
    (UserService.getDetail ⟨state.homeserverDomain⟩ schedule' keycloakId)
    (AuditService.forUser keycloakId 20)
  match user with
  | .error e => return .error e
  | .ok user => return .ok (detailPage state admin query user auditLogs)

end

end Users

end MatrixIdentityAdmin.Ref
