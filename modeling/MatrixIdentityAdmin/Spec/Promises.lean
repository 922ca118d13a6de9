import MatrixIdentityAdmin.Spec.Goals
import MatrixIdentityAdmin.Spec.Touches
import MatrixIdentityAdmin.Spec.UserParts

/-!
# What an admin may rely on

The admin sees a redirect. When it carries no warning it stands for a promise:
the state the request was made for has been reached. `Keeps` is that promise
for each of the requests of a user's page, as a relation between the world the
request started from and the one it is over in.
-/

namespace MatrixIdentityAdmin.Ref

open MatrixIdentityAdmin.Lib

/-- The user is where the policy puts them: in the rooms that are granted, out
of those that are barred, and elsewhere as before. -/
def World.Enforced (w : World) (m : String) (groups roles : List String)
    (bindings : List PolicyBinding) (w' : World) : Prop :=
  ∀ r, m ∈ w'.members r ↔ ¬ w.Barred groups roles bindings r ∧
    (w.Granted groups roles bindings r ∨ m ∈ w.members r)

/-- The policy does not contradict itself about a user. -/
def World.Consistent (w : World) (groups roles : List String)
    (bindings : List PolicyBinding) : Prop :=
  ∀ r, w.Granted groups roles bindings r → ¬ w.Barred groups roles bindings r

section

variable (state : AppState)

abbrev AppState.matrixIdOf (u : KeycloakUser) : String :=
  matrixId u.username state.homeserverDomain

/-- The Matrix ids a bulk request has to do with. -/
def AppState.Walked (users : List KeycloakUser) (m : String) : Prop :=
  ∃ u ∈ users, u.enabled = true ∧ m = state.matrixIdOf u

end

namespace World

variable (w : World) (keycloakId : String)

def groupNames : List String := (w.groups keycloakId).map (·.name)

def roleNames : List String := (w.roles keycloakId).map (·.name)

end World

namespace UserAction

/-- Where a request that had nothing to warn about goes. -/
def plain (keycloakId : String) : UserAction → String
  | .disable | .logout | .preview => s!"/users/{keycloakId}"
  | .offboard =>
      let notice := pctEncode "User offboarded successfully"
      s!"/users/{keycloakId}?notice={notice}"
  | .reactivate => s!"/users/{keycloakId}?notice=User+reactivated"
  | .delete => "/users/search"
  | .reconcile =>
      let notice := pctEncode "Room membership reconciled"
      s!"/users/{keycloakId}?notice={notice}"

/-- The admin is shown no warning. -/
def Plain (keycloakId : String) : (a : UserAction) → a.Out → Prop
  | .preview, _ => True
  | .disable, location => location = plain keycloakId .disable
  | .offboard, location => location = plain keycloakId .offboard
  | .reactivate, location => location = plain keycloakId .reactivate
  | .delete, location => location = plain keycloakId .delete
  | .logout, location => location = plain keycloakId .logout
  | .reconcile, location => location = plain keycloakId .reconcile

variable (state : AppState) (keycloakId : String) (w₀ w' : World)

/-- What a request promises. -/
def Keeps : UserAction → Prop
  | .disable => ∃ u, w₀.realm.byId keycloakId = some u ∧
      AccountWorkflow.disable.Reached state.homeserverDomain u w'
  | .offboard => ∃ u, w₀.realm.byId keycloakId = some u ∧
      (AccountWorkflow.offboard state.synapse w₀.listed).Reached
        state.homeserverDomain u w'
  | .reactivate => ∃ u, w₀.realm.byId keycloakId = some u ∧
      AccountWorkflow.reactivate.Reached state.homeserverDomain u w'
  | .delete => ∃ u, w₀.realm.byId keycloakId = some u ∧
      AccountWorkflow.delete.Reached state.homeserverDomain u w'
  | .logout => w'.LoggedOut keycloakId
  | .reconcile => ∃ u, w₀.realm.byId keycloakId = some u ∧
      (w₀.Consistent (w₀.groupNames keycloakId) (w₀.roleNames keycloakId)
        w₀.listed →
        w₀.Enforced (matrixId u.username state.homeserverDomain)
          (w₀.groupNames keycloakId) (w₀.roleNames keycloakId) w₀.listed w')
  | .preview => w₀.SamePart state.homeserverDomain keycloakId w₀ w'

end UserAction

end MatrixIdentityAdmin.Ref
