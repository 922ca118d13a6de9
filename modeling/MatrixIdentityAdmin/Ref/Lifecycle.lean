import MatrixIdentityAdmin.Ref.Reconcile

/-!
# `services/lifecycle_steps.rs`

The steps the account workflows are composed of. Every step takes the name
of its workflow and builds its audit action from it. The steps that end in a
`Result` are fatal: the workflow stops at their `Err`. The others return an
outcome whose warnings the workflow collects.
-/

namespace MatrixIdentityAdmin.Ref

open MatrixIdentityAdmin.Lib

section

variable (context keycloakId : String) (matrixUserId : String)
  (adminSubject adminUsername : String)

/-- The entry a step writes about one call. -/
def stepEntry (action : String) (result : AuditResult)
    (metadata : List (String × MetaValue)) : AuditEntry where
  adminSubject := adminSubject
  adminUsername := adminUsername
  targetKeycloakUserId := some keycloakId
  targetMatrixUserId := some matrixUserId
  action := action
  result := result
  metadata := metadata

/-- One round of the session loop of `revoke_auth_sessions`. -/
def revokeSession (outcome : WorkflowOutcome) (session : MasSession) :
    Async WorkflowOutcome := do
  let result ← Mas.finishSession session.id session.sessionType
  let outcome ← logOrWarn outcome
    (stepEntry keycloakId matrixUserId adminSubject adminUsername
      s!"revoke_auth_session_on_{context}" (.of result)
      [("session_id", .str session.id),
        ("session_type", .str session.sessionType)])
  return outcome.warnOn result fun e =>
    s!"Session {session.id} ({session.sessionType}) could not be revoked: {e}"

/-- `revoke_auth_sessions`. -/
def revokeAuthSessions (username : String) : Async WorkflowOutcome := do
  match ← Mas.getUserByUsername username with
  | .error e =>
      return WorkflowOutcome.ok.addWarning s!"Auth user lookup failed: {e}"
  | .ok none => return .ok
  | .ok (some authUser) =>
      match ← Mas.listSessions authUser.id with
      | .error e =>
          return WorkflowOutcome.ok.addWarning s!"Auth session list failed: {e}"
      | .ok sessionResult =>
          (sessionResult.sessions.filter (·.finishedAt.isNone)).foldlM
            (revokeSession context keycloakId matrixUserId adminSubject
              adminUsername)
            (WorkflowOutcome.ok.extend sessionResult.warnings)

/-- `force_identity_logout`. -/
def forceIdentityLogout : Async WorkflowOutcome := do
  let result ← Keycloak.logoutUser keycloakId
  let outcome ← logOrWarn .ok
    (stepEntry keycloakId matrixUserId adminSubject adminUsername
      s!"force_identity_logout_on_{context}" (.of result)
      [("keycloak_user_id", .str keycloakId)])
  return outcome.warnOn result fun e => s!"Identity logout failed: {e}"

/-- The fatal steps: make the call, write the entry, and stop at whichever
of the two failed, the entry first. -/
def fatalStep (call : Async (Result Unit)) (action : String)
    (metadata : List (String × MetaValue)) : Async (Result Unit) := do
  let result ← call
  (auditLog (stepEntry keycloakId matrixUserId adminSubject adminUsername
    action (.of result) metadata)).andThen fun _ => return result

/-- `disable_identity_account`. -/
def disableIdentityAccount (username : String) : Async (Result Unit) :=
  fatalStep keycloakId matrixUserId adminSubject adminUsername
    (Keycloak.disableUser keycloakId)
    s!"disable_identity_account_on_{context}"
    [("keycloak_user_id", .str keycloakId), ("username", .str username)]

/-- `enable_identity_account`. -/
def enableIdentityAccount (username : String) : Async (Result Unit) :=
  fatalStep keycloakId matrixUserId adminSubject adminUsername
    (Keycloak.enableUser keycloakId)
    s!"enable_identity_account_on_{context}"
    [("keycloak_user_id", .str keycloakId), ("username", .str username)]

/-- `deactivate_auth_account`. -/
def deactivateAuthAccount (authUserId username : String) :
    Async (Result Unit) :=
  fatalStep keycloakId matrixUserId adminSubject adminUsername
    (Mas.deactivateUser authUserId)
    s!"deactivate_auth_account_on_{context}"
    [("auth_user_id", .str authUserId), ("username", .str username)]

/-- `reactivate_auth_account`. -/
def reactivateAuthAccount (authUserId username : String) :
    Async WorkflowOutcome := do
  let result ← Mas.reactivateUser authUserId
  let outcome ← logOrWarn .ok
    (stepEntry keycloakId matrixUserId adminSubject adminUsername
      s!"reactivate_auth_account_on_{context}" (.of result)
      [("auth_user_id", .str authUserId), ("username", .str username)])
  return outcome.warnOn result fun e => s!"Auth account reactivate failed: {e}"

/-- One round of the room loop of `kick_from_all_mapped_rooms`. -/
def kickMappedRoom (binding : PolicyBinding) (outcome : WorkflowOutcome)
    (targetRoom : String) : Async WorkflowOutcome := do
  match ← Synapse.getJoinedRoomMembers targetRoom with
  | .error e =>
      return outcome.addWarning s!"Could not fetch members of {targetRoom}: {e}"
  | .ok members =>
      if !members.contains matrixUserId then
        return outcome
      else do
        let result ← Synapse.kickUserFromRoom matrixUserId targetRoom "Offboarded"
        let outcome ← logOrWarn outcome
          (stepEntry keycloakId matrixUserId adminSubject adminUsername
            s!"kick_room_on_{context}" (.of result)
            [("room_id", .str targetRoom),
              ("subject", .str (toString binding.subject))])
        return outcome.warnOn result fun e =>
          s!"Could not kick {matrixUserId} from {targetRoom}: {e}"

/-- One round of its binding loop; the rooms already looked at are carried
along with the outcome. The expansion is written out a second time in the
source and is the one of `expand_targets`. -/
def kickMappedBinding (acc : List String × WorkflowOutcome)
    (binding : PolicyBinding) : Async (List String × WorkflowOutcome) := do
  let (seenRooms, outcome) := acc
  let roomId := binding.target.roomId
  if seenRooms.contains roomId then
    return (seenRooms, outcome)
  else do
    let (targets, warnings) ← expandTargets roomId outcome.warnings
    let outcome ← targets.reverse.foldlM
      (kickMappedRoom context keycloakId matrixUserId adminSubject
        adminUsername binding) ⟨warnings⟩
    return (roomId :: seenRooms, outcome)

/-- `kick_from_all_mapped_rooms`. -/
def kickFromAllMappedRooms (bindings : List PolicyBinding) :
    Async WorkflowOutcome := do
  let (_, outcome) ← bindings.foldlM
    (kickMappedBinding context keycloakId matrixUserId adminSubject
      adminUsername) ([], WorkflowOutcome.ok)
  return outcome

end

end MatrixIdentityAdmin.Ref
