import MatrixIdentityAdmin.Lib.Prog
import MatrixIdentityAdmin.Ref.Models

/-!
# The calls the service makes

The workflows reach everything outside their own code through a few traits:
`KeycloakIdentityProvider`, `AuthService` (MAS), `MatrixService` (Synapse),
`AuditService` and `PolicyService`. Each trait is an enumeration of its
methods here, each method carries its arguments, and every answer is the
method's own `Result`: an `AppError` or the value of the `Ok`. An `async fn`
is a program over these calls.
-/

namespace MatrixIdentityAdmin.Ref

open MatrixIdentityAdmin.Lib

/-- The methods of `KeycloakIdentityProvider` the workflows use. -/
inductive KeycloakCall where
  | searchUsers (query : String) (max first : UInt32)
  | countUsers (query : String)
  | getUser (userId : String)
  | getUserGroups (userId : String)
  | getUserRoles (userId : String)
  | logoutUser (userId : String)
  | deleteUser (userId : String)
  | disableUser (userId : String)
  | enableUser (userId : String)
deriving DecidableEq, Repr

/-- The methods of `AuthService`. -/
inductive AuthCall where
  | getUserByUsername (username : String)
  | listSessions (masUserId : String)
  | finishSession (sessionId sessionType : String)
  | deactivateUser (masUserId : String)
  | reactivateUser (masUserId : String)
deriving DecidableEq, Repr

/-- The methods of `MatrixService` the workflows use. -/
inductive MatrixCall where
  | getJoinedRoomMembers (roomId : String)
  | forceJoinUser (userId roomId : String)
  | kickUserFromRoom (userId roomId reason : String)
  | getSpaceChildren (spaceId : String)
  | setPowerLevel (roomId userId : String) (level : Int)
deriving DecidableEq, Repr

/-- The methods of `PolicyService` the workflows use. -/
inductive PolicyCall where
  | listBindings
deriving DecidableEq, Repr

/-- A call of a workflow, by what answers it. -/
inductive Call where
  | keycloak (c : KeycloakCall)
  | mas (c : AuthCall)
  | synapse (c : MatrixCall)
  | audit (entry : AuditEntry)
  | policy (c : PolicyCall)
deriving DecidableEq, Repr

abbrev KeycloakCall.Ret : KeycloakCall → Type
  | .searchUsers .. => List KeycloakUser
  | .countUsers _ => UInt32
  | .getUser _ => KeycloakUser
  | .getUserGroups _ => List KeycloakGroup
  | .getUserRoles _ => List KeycloakRole
  | .logoutUser _ | .deleteUser _ | .disableUser _ | .enableUser _ => Unit

abbrev AuthCall.Ret : AuthCall → Type
  | .getUserByUsername _ => Option MasUser
  | .listSessions _ => SessionListResult
  | .finishSession .. | .deactivateUser _ | .reactivateUser _ => Unit

abbrev MatrixCall.Ret : MatrixCall → Type
  | .getJoinedRoomMembers _ | .getSpaceChildren _ => List String
  | .forceJoinUser .. | .kickUserFromRoom .. | .setPowerLevel .. => Unit

abbrev PolicyCall.Ret : PolicyCall → Type
  | .listBindings => List PolicyBinding

abbrev Call.Ret : Call → Type
  | .keycloak c => c.Ret
  | .mas c => c.Ret
  | .synapse c => c.Ret
  | .audit _ => Unit
  | .policy c => c.Ret

/-- `Result<T, AppError>`. -/
abbrev Result (α : Type) : Type := Except AppError α

/-- What a call comes back with. -/
abbrev Answer (c : Call) : Type := Result c.Ret

abbrev Exchange : Type := Event Call Answer

/-- An `async fn`. -/
abbrev Async (α : Type) : Type := Prog Call Answer α

/-- `.await` on a call. -/
def ask (c : Call) : Async (Answer c) := Prog.send c

/-- Did the call come back with an `Err`? -/
def failed (e : Exchange) : Bool := !e.answer.isOk

namespace Keycloak

def searchUsers (query : String) (max first : UInt32) :
    Async (Result (List KeycloakUser)) :=
  ask (.keycloak (.searchUsers query max first))

def countUsers (query : String) : Async (Result UInt32) :=
  ask (.keycloak (.countUsers query))

def getUser (userId : String) : Async (Result KeycloakUser) :=
  ask (.keycloak (.getUser userId))

def getUserGroups (userId : String) : Async (Result (List KeycloakGroup)) :=
  ask (.keycloak (.getUserGroups userId))

def getUserRoles (userId : String) : Async (Result (List KeycloakRole)) :=
  ask (.keycloak (.getUserRoles userId))

def logoutUser (userId : String) : Async (Result Unit) :=
  ask (.keycloak (.logoutUser userId))

def deleteUser (userId : String) : Async (Result Unit) :=
  ask (.keycloak (.deleteUser userId))

def disableUser (userId : String) : Async (Result Unit) :=
  ask (.keycloak (.disableUser userId))

def enableUser (userId : String) : Async (Result Unit) :=
  ask (.keycloak (.enableUser userId))

end Keycloak

namespace Mas

def getUserByUsername (username : String) : Async (Result (Option MasUser)) :=
  ask (.mas (.getUserByUsername username))

def listSessions (masUserId : String) : Async (Result SessionListResult) :=
  ask (.mas (.listSessions masUserId))

def finishSession (sessionId sessionType : String) : Async (Result Unit) :=
  ask (.mas (.finishSession sessionId sessionType))

def deactivateUser (masUserId : String) : Async (Result Unit) :=
  ask (.mas (.deactivateUser masUserId))

def reactivateUser (masUserId : String) : Async (Result Unit) :=
  ask (.mas (.reactivateUser masUserId))

end Mas

namespace Synapse

def getJoinedRoomMembers (roomId : String) : Async (Result (List String)) :=
  ask (.synapse (.getJoinedRoomMembers roomId))

def forceJoinUser (userId roomId : String) : Async (Result Unit) :=
  ask (.synapse (.forceJoinUser userId roomId))

def kickUserFromRoom (userId roomId reason : String) : Async (Result Unit) :=
  ask (.synapse (.kickUserFromRoom userId roomId reason))

def getSpaceChildren (spaceId : String) : Async (Result (List String)) :=
  ask (.synapse (.getSpaceChildren spaceId))

def setPowerLevel (roomId userId : String) (level : Int) : Async (Result Unit) :=
  ask (.synapse (.setPowerLevel roomId userId level))

end Synapse

/-- `AuditService::log`. -/
def auditLog (entry : AuditEntry) : Async (Result Unit) := ask (.audit entry)

/-- `PolicyService::list_bindings`. -/
def listBindings : Async (Result (List PolicyBinding)) :=
  ask (.policy .listBindings)

/-- What the steps that go on without their entry make of the answer. -/
def WorkflowOutcome.logged (outcome : WorkflowOutcome) (result : Result Unit) :
    WorkflowOutcome :=
  outcome.warnOn result fun e => s!"Audit log write failed: {e}"

def logOrWarn (outcome : WorkflowOutcome) (entry : AuditEntry) :
    Async WorkflowOutcome := do
  return outcome.logged (← auditLog entry)

end MatrixIdentityAdmin.Ref
