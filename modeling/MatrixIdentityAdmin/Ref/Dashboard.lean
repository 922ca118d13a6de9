import MatrixIdentityAdmin.Ref.AuditLog

/-!
# `handlers/dashboard.rs`

The card that counts lifecycle actions: the names it counts, and the query it
counts them with.
-/

namespace MatrixIdentityAdmin.Ref.Dashboard

/-- `LIFECYCLE_ACTIONS`. -/
def lifecycleActions : List String :=
  ["disable_identity_account_on_disable", "disable_identity_account_on_offboard",
    "reactivate_auth_account_on_reactivate", "delete_keycloak_user"]

/-- `state.audit.count_actions_since(LIFECYCLE_ACTIONS, ..)`. -/
def lifecycleSince (secs : Int) : AuditReading (Result Int) :=
  AuditDb.countActionsSince lifecycleActions secs

end MatrixIdentityAdmin.Ref.Dashboard
