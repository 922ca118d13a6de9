import MatrixIdentityAdmin.Ref.Lifecycle

/-!
# The account workflows

`services/disable_user.rs`, `offboard_user.rs`, `reactivate_user.rs` and
`delete_user.rs`: each starts by fetching the Keycloak record, derives the
Matrix id from its username, and then runs its steps in order. `andThen` is
the `?` of the source.
-/

namespace MatrixIdentityAdmin.Ref

open MatrixIdentityAdmin.Lib

/-- `format!("@{}:{}", username, homeserver_domain)`. -/
def matrixId (username homeserverDomain : String) : String :=
  s!"@{username}:{homeserverDomain}"

theorem matrixId_inj {a b homeserverDomain : String}
    (h : matrixId a homeserverDomain = matrixId b homeserverDomain) : a = b := by
  have hl := congrArg String.toList h
  simp [matrixId, String.toList_append] at hl
  exact String.toList_inj.1 hl

section

variable (keycloakId adminSubject adminUsername homeserverDomain : String)

/-- `disable_user`. -/
def disableUser : Async (Result WorkflowOutcome) :=
  (Keycloak.getUser keycloakId).andThen fun kcUser => do
    let username := kcUser.username
    let matrixUserId := matrixId username homeserverDomain
    let outcome ← revokeAuthSessions "disable" keycloakId matrixUserId
      adminSubject adminUsername username
    (disableIdentityAccount "disable" keycloakId matrixUserId adminSubject
      adminUsername username).andThen fun _ => return .ok outcome

/-- Step 4 of `offboard_user`: the kicks, or the warning that no connector
is there to make them. -/
def offboardRooms (synapse : Bool) (bindings : List PolicyBinding)
    (matrixUserId : String) (outcome : WorkflowOutcome) :
    Async WorkflowOutcome := do
  if synapse then do
    let kickOutcome ← kickFromAllMappedRooms "offboard" keycloakId
      matrixUserId adminSubject adminUsername bindings
    return outcome.extend kickOutcome.warnings
  else if !bindings.isEmpty then
    return outcome.addWarning
      "Matrix connector not configured; room membership was not cleaned up"
  else
    return outcome

/-- The lookup before step 5: a failure is a warning and nobody to deactivate. -/
def offboardLookup (username : String) (outcome : WorkflowOutcome) :
    Async (Option MasUser × WorkflowOutcome) := do
  match ← Mas.getUserByUsername username with
  | .ok u => return (u, outcome)
  | .error e =>
      return (none, outcome.addWarning
        s!"Auth user lookup failed; skipping deactivation: {e}")

/-- `offboard_user`; `synapse` says whether the connector is configured. -/
def offboardUser (synapse : Bool) (bindings : List PolicyBinding) :
    Async (Result WorkflowOutcome) :=
  (Keycloak.getUser keycloakId).andThen fun kcUser => do
    let username := kcUser.username
    let matrixUserId := matrixId username homeserverDomain
    let outcome ← revokeAuthSessions "offboard" keycloakId matrixUserId
      adminSubject adminUsername username
    let logoutOutcome ← forceIdentityLogout "offboard" keycloakId matrixUserId
      adminSubject adminUsername
    let outcome := outcome.extend logoutOutcome.warnings
    (disableIdentityAccount "offboard" keycloakId matrixUserId adminSubject
      adminUsername username).andThen fun _ => do
        let outcome ← offboardRooms keycloakId adminSubject adminUsername
          synapse bindings matrixUserId outcome
        let (authUser, outcome) ← offboardLookup username outcome
        match authUser with
        | none => return .ok outcome
        | some authUser =>
            (deactivateAuthAccount "offboard" keycloakId matrixUserId
              adminSubject adminUsername authUser.id username).andThen
                fun _ => return .ok outcome

/-- The end of `reactivate_user`: the MAS account, if there is one and it is
deactivated. -/
def reactivateLookup (username matrixUserId : String) :
    Async WorkflowOutcome := do
  match ← Mas.getUserByUsername username with
  | .error e =>
      return WorkflowOutcome.ok.addWarning s!"Auth user lookup failed: {e}"
  | .ok none => return .ok
  | .ok (some u) =>
      if u.deactivatedAt.isSome then do
        let reactivateOutcome ← reactivateAuthAccount "reactivate" keycloakId
          matrixUserId adminSubject adminUsername u.id username
        return WorkflowOutcome.ok.extend reactivateOutcome.warnings
      else
        return .ok

/-- `reactivate_user`. -/
def reactivateUser : Async (Result WorkflowOutcome) :=
  (Keycloak.getUser keycloakId).andThen fun kcUser =>
    let username := kcUser.username
    let matrixUserId := matrixId username homeserverDomain
    (enableIdentityAccount "reactivate" keycloakId matrixUserId adminSubject
      adminUsername username).andThen fun _ => do
        let outcome ← reactivateLookup keycloakId adminSubject adminUsername
          username matrixUserId
        return .ok outcome

/-- `DeleteUserResult`. -/
inductive DeleteUserResult where
  | deleted (outcome : WorkflowOutcome)
  | partialFailure (outcome : WorkflowOutcome)
deriving DecidableEq, Repr

/-- The MAS lookup of `delete_user`. -/
def deleteLookup (username : String) :
    Async (Option MasUser × WorkflowOutcome) := do
  match ← Mas.getUserByUsername username with
  | .ok user => return (user, .ok)
  | .error _ =>
      return (none, WorkflowOutcome.ok.addWarning
        "Deleted the Keycloak user, but MAS lookup failed before cleanup. Check MAS for a leftover account.")

/-- The MAS half of `delete_user`. -/
def deleteMasUser (matrixUserId username : String) :
    Option MasUser → Async (Result Unit)
  | none => return .ok ()
  | some masUser =>
      fatalStep keycloakId matrixUserId adminSubject adminUsername
        (Mas.deactivateUser masUser.id) "deactivate_mas_user"
        [("keycloak_user_id", .str keycloakId),
          ("mas_user_id", .str masUser.id), ("username", .str username)]

/-- The Keycloak half of `delete_user`. -/
def deleteKeycloakUser (matrixUserId username : String)
    (masUser : Option MasUser) (outcome : WorkflowOutcome) :
    Async (Result DeleteUserResult) := do
  let kcResult ← Keycloak.deleteUser keycloakId
  (auditLog (stepEntry keycloakId matrixUserId adminSubject adminUsername
    "delete_keycloak_user" (.of kcResult)
    [("keycloak_user_id", .str keycloakId), ("username", .str username),
      ("mas_deactivated", .bool masUser.isSome)])).andThen fun _ =>
    match kcResult with
    | .ok () => return .ok (.deleted outcome)
    | .error err =>
        if masUser.isSome then
          return .ok (.partialFailure (outcome.addWarning
            "MAS was deactivated, but deleting the Keycloak user failed. Retry delete or reactivate the user before reinviting them."))
        else
          return .error err

/-- `delete_user`. -/
def deleteUser : Async (Result DeleteUserResult) :=
  (Keycloak.getUser keycloakId).andThen fun kcUser => do
    let username := kcUser.username
    let matrixUserId := matrixId username homeserverDomain
    let (masUser, outcome) ← deleteLookup username
    (deleteMasUser keycloakId adminSubject adminUsername matrixUserId username
      masUser).andThen fun _ =>
        deleteKeycloakUser keycloakId adminSubject adminUsername matrixUserId
          username masUser outcome

end

end MatrixIdentityAdmin.Ref
