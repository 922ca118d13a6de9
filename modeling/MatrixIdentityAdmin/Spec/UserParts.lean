import MatrixIdentityAdmin.Lib.Parts
import MatrixIdentityAdmin.Ref.AccountHandlers
import MatrixIdentityAdmin.Spec.Account
import MatrixIdentityAdmin.Spec.World

/-!
# Whose the world is

The requests of a user's page name a Keycloak id. What belongs to it is the
record with that id and its login, the MAS account of the record's username
and the sessions of that account, the memberships and power levels of the
Matrix id, and the entries of the audit log that name the record. Everything
else belongs to somebody else, as long as two accounts do not share a session.

The world is looked at from a fixed one, `w₀`, since neither usernames nor the
keys of accounts and sessions ever change.
-/

namespace MatrixIdentityAdmin.Ref

open MatrixIdentityAdmin.Lib

namespace World

/-- The record with the id has this username. -/
def Named (w : World) (keycloakId username : String) : Prop :=
  ∃ u, w.realm.byId keycloakId = some u ∧ u.username = username

/-- The MAS account with the id `masUserId` is the record's. -/
def HasAccount (w : World) (keycloakId masUserId : String) : Prop :=
  ∃ n a, w.Named keycloakId n ∧ w.accounts.byName n = some a ∧ a.id = masUserId

/-- The session is one of the record's. -/
def HasSession (w : World) (keycloakId sessionId sessionType : String) : Prop :=
  ∃ masUserId, w.HasAccount keycloakId masUserId ∧
    ∃ s ∈ w.sessions masUserId, s.id = sessionId ∧ s.sessionType = sessionType

/-- No session is listed for two accounts. -/
def SessionsApart (w : World) : Prop :=
  ∀ a b, ∀ s ∈ w.sessions a, ∀ s' ∈ w.sessions b, s.id = s'.id →
    s.sessionType = s'.sessionType → a = b

/-- What the audit log says about a record. -/
def trail (w : World) (keycloakId : String) : List AuditEntry :=
  w.audit.filter fun entry => entry.targetKeycloakUserId = some keycloakId

/-- Two worlds that look the same to a record. -/
structure SamePart (w₀ : World) (homeserverDomain keycloakId : String)
    (w w' : World) : Prop where
  record : w.realm.byId keycloakId = w'.realm.byId keycloakId
  login : w.loggedIn keycloakId = w'.loggedIn keycloakId
  account : ∀ n, w₀.Named keycloakId n →
    w.accounts.byName n = w'.accounts.byName n
  sessions : ∀ masUserId, w₀.HasAccount keycloakId masUserId →
    w.sessions masUserId = w'.sessions masUserId
  member : ∀ n r, w₀.Named keycloakId n →
    (matrixId n homeserverDomain ∈ w.members r ↔
      matrixId n homeserverDomain ∈ w'.members r)
  power : ∀ n r, w₀.Named keycloakId n →
    w.power r (matrixId n homeserverDomain) =
      w'.power r (matrixId n homeserverDomain)
  trail : w.trail keycloakId = w'.trail keycloakId

end World

/-! ## The requests of a user's page -/

/-- The buttons of a user's page. -/
inductive UserAction where
  | disable
  | offboard
  | reactivate
  | delete
  | logout
  | reconcile
  | preview
deriving DecidableEq, Repr

/-- A request with what its extractors hand the handler. -/
structure UserRequest where
  action : UserAction
  admin : Admin
  keycloakId : String
  csrf : String
deriving DecidableEq, Repr

abbrev UserAction.Out : UserAction → Type
  | .preview => ReconcilePreview
  | _ => String

/-- What serving a request runs. -/
def UserRequest.run (state : AppState) (q : UserRequest) :
    Async (Result q.action.Out) :=
  match q.action with
  | .disable => Ref.disable state q.admin q.keycloakId q.csrf
  | .offboard => Ref.offboard state q.admin q.keycloakId q.csrf
  | .reactivate => Ref.reactivate state q.admin q.keycloakId q.csrf
  | .delete => deleteUserHandler state q.admin q.keycloakId q.csrf
  | .logout => forceKeycloakLogout q.admin q.keycloakId q.csrf
  | .reconcile => Ref.reconcile state q.admin q.keycloakId q.csrf
  | .preview => reconcilePreview state q.admin q.keycloakId q.csrf

end MatrixIdentityAdmin.Ref
