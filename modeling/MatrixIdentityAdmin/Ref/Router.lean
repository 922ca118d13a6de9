import MatrixIdentityAdmin.Ref.InviteHandlers
import MatrixIdentityAdmin.Ref.PolicyHandlers

/-!
# `lib.rs`: the router

The routes of `build_router` that sign somebody in or out or that are a POST,
each with what its extractors take out of the request. A request whose query,
form or body does not parse is turned away by its extractor and gets to no
handler; one that takes too long is dropped where it is. The other routes are
pages and options to read.
-/

namespace MatrixIdentityAdmin.Ref

open MatrixIdentityAdmin.Lib

namespace App

open InviteHandlers PolicyHandlers

/-- A request, by its route, with what its extractors read. -/
inductive Request where
  | login
  | callback (code state : String)
  | logout (csrf : String)
  | revoke (keycloakId sessionId csrf sessionType : String)
  | forceKeycloakLogout (keycloakId csrf : String)
  | deleteUser (keycloakId csrf : String)
  | disable (keycloakId csrf : String)
  | reactivate (keycloakId csrf : String)
  | offboard (keycloakId csrf : String)
  | reconcile (keycloakId csrf : String)
  | reconcilePreview (keycloakId csrf : String)
  | bulkReconcile (csrf : String)
  | adminInvite (form : AdminInviteForm)
  | createInvite (authorization : Option String) (body : InviteRequest)
  | createBinding (form : CreateBindingForm)
  | updateBinding (id : String) (form : UpdateBindingForm)
  | deleteBinding (id csrf : String)
  | refreshRooms (csrf : String)
  | createTemplate (form : Templates.CreateForm)
  | deleteTemplate (form : Templates.DeleteForm)
deriving DecidableEq, Repr

/-- The field `_csrf` of the form that came with a request. -/
def Request.csrf : Request → Option String
  | .login | .callback .. | .createInvite .. => none
  | .logout csrf | .revoke _ _ csrf _ | .forceKeycloakLogout _ csrf
  | .deleteUser _ csrf | .disable _ csrf | .reactivate _ csrf
  | .offboard _ csrf | .reconcile _ csrf | .reconcilePreview _ csrf
  | .bulkReconcile csrf | .deleteBinding _ csrf | .refreshRooms csrf => some csrf
  | .adminInvite form => some form.csrf
  | .createBinding form => some form.csrf
  | .updateBinding _ form => some form.csrf
  | .createTemplate form => some form.csrf
  | .deleteTemplate form => some form.csrf

/-- The rendering of what a handler returns. -/
def rendered {α : Type} (render : α → Response) (p : Handler α) :
    Handler (Option Response) := do
  return some (render (← p))

/-- The fragment of `reconcile_preview`. -/
def previewing (keycloakId csrfToken : String) :
    Result ReconcilePreview → Response
  | .ok p => .preview keycloakId csrfToken p
  | .error e => .failed e

/-- The page of `bulk_reconcile`. -/
def bulkPage (username : String) : Result BulkReconcileResult → Response
  | .ok r => .bulkResult username r
  | .error e => .failed e

/-- `build_router`: `none` means that the fuel of a paging loop ran out. -/
def serve (config : Config) (fuel : Nat) : Request → Handler (Option Response)
  | .login => rendered redirecting (login config)
  | .callback code state => rendered redirecting (callback config code state)
  | .logout csrf => authenticated config fun admin =>
      rendered redirecting (logout admin csrf)
  | .revoke keycloakId sessionId csrf sessionType =>
      authenticated config fun admin => rendered redirecting
        (service (revoke admin keycloakId sessionId csrf sessionType))
  | .forceKeycloakLogout keycloakId csrf => authenticated config fun admin =>
      rendered redirecting (service (forceKeycloakLogout admin keycloakId csrf))
  | .deleteUser keycloakId csrf => authenticated config fun admin =>
      rendered redirecting
        (service (deleteUserHandler config.toAppState admin keycloakId csrf))
  | .disable keycloakId csrf => authenticated config fun admin =>
      rendered redirecting
        (service (disable config.toAppState admin keycloakId csrf))
  | .reactivate keycloakId csrf => authenticated config fun admin =>
      rendered redirecting
        (service (reactivate config.toAppState admin keycloakId csrf))
  | .offboard keycloakId csrf => authenticated config fun admin =>
      rendered redirecting
        (service (offboard config.toAppState admin keycloakId csrf))
  | .reconcile keycloakId csrf => authenticated config fun admin =>
      rendered redirecting
        (service (reconcile config.toAppState admin keycloakId csrf))
  | .reconcilePreview keycloakId csrf => authenticated config fun admin =>
      rendered (previewing keycloakId admin.csrfToken)
        (service (reconcilePreview config.toAppState admin keycloakId csrf))
  | .bulkReconcile csrf => authenticated config fun admin => do
      return (← service (bulkReconcile config.toAppState admin fuel csrf)).map
        (bulkPage admin.username)
  | .adminInvite form => authenticated config fun admin =>
      rendered id (adminInvite config admin form)
  | .createInvite authorization body =>
      rendered id (createInvite config authorization body)
  | .createBinding form => authenticated config fun admin =>
      rendered redirecting (store (PolicyHandlers.create admin form))
  | .updateBinding id form => authenticated config fun admin =>
      rendered redirecting (store (PolicyHandlers.update admin id form))
  | .deleteBinding id csrf => authenticated config fun admin =>
      rendered redirecting (store (PolicyHandlers.delete admin id csrf))
  | .refreshRooms csrf => authenticated config fun admin => do
      return (← refreshRooms config.toAppState admin fuel csrf).map redirecting
  | .createTemplate form => authenticated config fun admin =>
      rendered redirecting (templates (Templates.create config.serde admin form))
  | .deleteTemplate form => authenticated config fun admin =>
      rendered redirecting (templates (Templates.delete config.serde admin form))

end App

end MatrixIdentityAdmin.Ref
