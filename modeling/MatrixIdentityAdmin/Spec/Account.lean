import MatrixIdentityAdmin.Lib.Ledger
import MatrixIdentityAdmin.Ref.Workflows

/-!
# The account workflows as one family

The four workflows act on one account each and write down what they do. What
the entry of a call says is fixed by the workflow and the call: the name of
the action is a function of the two. `accountBook` is that function, and it
knows nothing about the order in which a workflow goes about its steps.
-/

namespace MatrixIdentityAdmin.Ref

open MatrixIdentityAdmin.Lib

/-- The four workflows about an account, with what their requests found out before. -/
inductive AccountWorkflow where
  | disable
  | offboard (synapse : Bool) (bindings : List PolicyBinding)
  | reactivate
  | delete

namespace AccountWorkflow

/-- The name a workflow hands to its steps. -/
def context : AccountWorkflow → String
  | .disable => "disable"
  | .offboard .. => "offboard"
  | .reactivate => "reactivate"
  | .delete => "delete"

abbrev Out : AccountWorkflow → Type
  | .disable => WorkflowOutcome
  | .offboard .. => WorkflowOutcome
  | .reactivate => WorkflowOutcome
  | .delete => DeleteUserResult

def run (keycloakId adminSubject adminUsername homeserverDomain : String) :
    (w : AccountWorkflow) → Async (Result w.Out)
  | .disable =>
      disableUser keycloakId adminSubject adminUsername homeserverDomain
  | .offboard synapse bindings =>
      offboardUser keycloakId adminSubject adminUsername homeserverDomain
        synapse bindings
  | .reactivate =>
      reactivateUser keycloakId adminSubject adminUsername homeserverDomain
  | .delete =>
      deleteUser keycloakId adminSubject adminUsername homeserverDomain

/-- The action a mutating call is written down under; `none` for the calls
the workflows only read with. -/
def action (w : AccountWorkflow) : Call → Option String
  | .mas (.finishSession ..) => some s!"revoke_auth_session_on_{w.context}"
  | .keycloak (.logoutUser _) => some s!"force_identity_logout_on_{w.context}"
  | .keycloak (.disableUser _) =>
      some s!"disable_identity_account_on_{w.context}"
  | .keycloak (.enableUser _) => some s!"enable_identity_account_on_{w.context}"
  | .synapse (.kickUserFromRoom ..) => some s!"kick_room_on_{w.context}"
  | .mas (.deactivateUser _) =>
      some (match w with
        | .delete => "deactivate_mas_user"
        | _ => s!"deactivate_auth_account_on_{w.context}")
  | .mas (.reactivateUser _) =>
      some s!"reactivate_auth_account_on_{w.context}"
  | .keycloak (.deleteUser _) => some "delete_keycloak_user"
  | _ => none

end AccountWorkflow

/-- What an entry must say about a call: whose account, which action, and
whether the call came back `Ok`. -/
structure AccountLine where
  keycloakId : Option String
  action : String
  result : AuditResult
deriving DecidableEq, Repr

/-- The lines a workflow owes for its mutating calls, and the lines its
entries write. -/
def accountBook (w : AccountWorkflow) (keycloakId : String) :
    Book Call Answer Unit AccountLine where
  next _ _ := ()
  act _ e := (w.action e.call).map fun action =>
    ⟨some keycloakId, action, .of e.answer⟩
  note
    | .audit entry =>
        some ⟨entry.targetKeycloakUserId, entry.action, entry.result⟩
    | _ => none

end MatrixIdentityAdmin.Ref
