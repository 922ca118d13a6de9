import MatrixIdentityAdmin.Spec.Account
import MatrixIdentityAdmin.Spec.World

/-!
# What the account workflows are for

The states an admin wants to see when a workflow reports success without a
warning, in terms of the world alone. `Reached` puts them together for each
workflow; the account is the one the Keycloak record had when the workflow
started, so the MAS account and the Matrix id are those of its username.
-/

namespace MatrixIdentityAdmin.Ref

open MatrixIdentityAdmin.Lib

namespace World

variable (w : World)

/-- The rooms a binding stands for. -/
def targets (b : PolicyBinding) : List String :=
  expansion b.target.roomId (.ok (w.children b.target.roomId))

theorem targets_congr {w w' : World} (h : w'.children = w.children) :
    w'.targets = w.targets := by
  funext b
  rw [targets, targets, h]

def Disabled (keycloakId : String) : Prop :=
  ∃ u, w.realm.byId keycloakId = some u ∧ u.enabled = false

def Enabled (keycloakId : String) : Prop :=
  ∃ u, w.realm.byId keycloakId = some u ∧ u.enabled = true

def LoggedOut (keycloakId : String) : Prop := w.loggedIn keycloakId = false

/-- No session of the MAS account of that name is active. -/
def SessionFree (username : String) : Prop :=
  ∀ a, w.accounts.byName username = some a →
    ∀ s ∈ w.sessions a.id, s.finishedAt.isSome

/-- The MAS account of that name is absent or deactivated. -/
def MasClosed (username : String) : Prop :=
  ∀ a, w.accounts.byName username = some a → a.deactivatedAt.isSome

/-- The MAS account of that name is absent or not deactivated. -/
def MasOpen (username : String) : Prop :=
  ∀ a, w.accounts.byName username = some a → a.deactivatedAt = none

/-- The user is in no room of any of the bindings. -/
def OutOf (bindings : List PolicyBinding) (userId : String) : Prop :=
  ∀ b ∈ bindings, ∀ r ∈ w.targets b, userId ∉ w.members r

end World

namespace AccountWorkflow

/-- A result the admin is shown as a plain success. -/
def Clean : (wf : AccountWorkflow) → wf.Out → Prop
  | .disable, outcome => outcome.warnings = []
  | .offboard .., outcome => outcome.warnings = []
  | .reactivate, outcome => outcome.warnings = []
  | .delete, result => ∃ outcome, result = .deleted outcome ∧ outcome.warnings = []

/-- The state a workflow is to bring about for the record `u`. -/
def Reached (homeserverDomain : String) (u : KeycloakUser) (w : World) :
    AccountWorkflow → Prop
  | .disable => w.Disabled u.id ∧ w.SessionFree u.username
  | .offboard _ bindings =>
      w.Disabled u.id ∧ w.SessionFree u.username ∧ w.LoggedOut u.id ∧
      w.OutOf bindings (matrixId u.username homeserverDomain) ∧
      w.MasClosed u.username
  | .reactivate => w.Enabled u.id ∧ w.MasOpen u.username
  | .delete => w.realm.byId u.id = none ∧ w.MasClosed u.username

end AccountWorkflow

end MatrixIdentityAdmin.Ref
