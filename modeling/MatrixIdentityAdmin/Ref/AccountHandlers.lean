import MatrixIdentityAdmin.Ref.Handlers

/-!
# The handlers of a user's page

`handlers/sessions.rs`, `devices.rs`, `delete.rs`, `disable.rs`,
`reactivate.rs` and `offboard.rs`, and the preview of `reconcile.rs`. Each
looks at the token of the form first, runs its workflow in the name of the
signed-in admin, and answers with the place to go to next.
-/

namespace MatrixIdentityAdmin.Ref

open MatrixIdentityAdmin.Lib

/-- The `validate(..)?` a handler starts with. -/
def Admin.checked {C : Type} {A : C → Type} {α : Type} (admin : Admin)
    (csrf : String) (p : Prog C A (Result α)) : Prog C A (Result α) :=
  match validate admin.csrfToken csrf with
  | .error e => return .error e
  | .ok () => p

/-- Make one call about a user, write it down, and go back to the page. -/
def auditedCall (admin : Admin) (keycloakId csrf : String)
    (call : Async (Result Unit)) (action : String)
    (metadata : List (String × MetaValue)) : Async (Result String) :=
  admin.checked csrf do
    let result ← call
    (auditLog {
      adminSubject := admin.subject
      adminUsername := admin.username
      targetKeycloakUserId := some keycloakId
      targetMatrixUserId := none
      action := action
      result := .of result
      metadata := metadata }).andThen fun _ =>
        return result.map fun _ => s!"/users/{keycloakId}"

/-- `handlers::sessions::revoke`. -/
def revoke (admin : Admin) (keycloakId sessionId csrf sessionType : String) :
    Async (Result String) :=
  auditedCall admin keycloakId csrf (Mas.finishSession sessionId sessionType)
    "finish_mas_session"
    [("session_id", .str sessionId), ("session_type", .str sessionType)]

/-- `handlers::devices::force_keycloak_logout`. -/
def forceKeycloakLogout (admin : Admin) (keycloakId csrf : String) :
    Async (Result String) :=
  auditedCall admin keycloakId csrf (Keycloak.logoutUser keycloakId)
    "force_keycloak_logout" [("keycloak_user_id", .str keycloakId)]

section

variable (state : AppState) (admin : Admin) (keycloakId csrf : String)

/-- Where `delete_user_handler` goes. -/
def deleteRedirect : DeleteUserResult → String
  | .deleted outcome =>
      if outcome.hasWarnings then
        s!"/users/search?warning={encodedWarning outcome}"
      else "/users/search"
  | .partialFailure outcome =>
      s!"/users/{keycloakId}?warning={encodedWarning outcome}"

/-- `handlers::delete::delete_user_handler`. -/
def deleteUserHandler : Async (Result String) :=
  admin.checked csrf <|
    (deleteUser keycloakId admin.subject admin.username
      state.homeserverDomain).andThen fun result =>
        return .ok (deleteRedirect keycloakId result)

/-- `handlers::disable::disable`. -/
def disable : Async (Result String) :=
  admin.checked csrf <|
    (disableUser keycloakId admin.subject admin.username
      state.homeserverDomain).andThen fun outcome =>
        return .ok (if outcome.hasWarnings then
          s!"/users/{keycloakId}?warning={encodedWarning outcome}"
        else s!"/users/{keycloakId}")

/-- `handlers::reactivate::reactivate`. -/
def reactivate : Async (Result String) :=
  admin.checked csrf <|
    (reactivateUser keycloakId admin.subject admin.username
      state.homeserverDomain).andThen fun outcome =>
        return .ok (if outcome.hasWarnings then
          s!"/users/{keycloakId}?warning={encodedWarning outcome}"
        else s!"/users/{keycloakId}?notice=User+reactivated")

/-- `handlers::offboard::offboard`. -/
def offboard : Async (Result String) :=
  admin.checked csrf <|
    listBindings.andThen fun bindings =>
      (offboardUser keycloakId admin.subject admin.username
        state.homeserverDomain state.synapse bindings).andThen fun outcome =>
          let notice := pctEncode "User offboarded successfully"
          return .ok (if outcome.hasWarnings then
            s!"/users/{keycloakId}?warning={encodedWarning outcome}"
          else s!"/users/{keycloakId}?notice={notice}")

/-- `handlers::reconcile::reconcile_preview`, up to the rendering of its
fragment. -/
def reconcilePreview : Async (Result ReconcilePreview) :=
  admin.checked csrf <|
    if !state.synapse then
      return .error (.notFound
        "Synapse is not configured — reconciliation is unavailable")
    else
      (Keycloak.getUser keycloakId).andThen fun kcUser =>
      (Keycloak.getUserGroups keycloakId).andThen fun kcGroups =>
      (Keycloak.getUserRoles keycloakId).andThen fun kcRoles =>
      listBindings.andThen fun bindings =>
        previewMembership (matrixId kcUser.username state.homeserverDomain)
          bindings (kcGroups.map (·.name)) (kcRoles.map (·.name))

end

end MatrixIdentityAdmin.Ref
