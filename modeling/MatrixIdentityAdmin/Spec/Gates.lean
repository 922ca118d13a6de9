import MatrixIdentityAdmin.Spec.Account

/-!
# What must have happened before a destructive step

A workflow that takes an account apart does it in an order that leaves
something to come back to. The gate of a call is what the exchanges so far
must show before the call may be sent; most calls have none. A call is
looked at while it is in flight, so a gate is about everything that was asked
and answered before it and about nothing else.
-/

namespace MatrixIdentityAdmin.Ref

open MatrixIdentityAdmin.Lib

namespace AccountWorkflow

variable (wf : AccountWorkflow) (keycloakId : String)

/-- The exchange took place, and the next thing was its own entry, which was
written. -/
def WrittenDown (t : List Exchange) (e : Exchange) : Prop :=
  ∃ entry, [e, ⟨.audit entry, .ok ()⟩] <:+: t ∧
    (accountBook wf keycloakId).note (.audit entry) =
      (accountBook wf keycloakId).act () e

/-- The MAS account of the record the workflow started from was asked for,
and this is what came back. -/
def LookedUp (t : List Exchange) (found : Result (Option MasUser)) : Prop :=
  ∃ u : KeycloakUser, ⟨.keycloak (.getUser keycloakId), .ok u⟩ ∈ t ∧
    ⟨.mas (.getUserByUsername u.username), found⟩ ∈ t

/-- The Keycloak account is off, and that is on record. -/
def DisableWritten (t : List Exchange) : Prop :=
  wf.WrittenDown keycloakId t ⟨.keycloak (.disableUser keycloakId), .ok ()⟩

/-- No MAS account is in the way of the deletion: none was found, the lookup
failed, or the one found is deactivated and that is on record. -/
def MasOutOfTheWay (t : List Exchange) : Prop :=
  (∃ e, LookedUp keycloakId t (.error e)) ∨ LookedUp keycloakId t (.ok none) ∨
    ∃ a, LookedUp keycloakId t (.ok (some a)) ∧
      wf.WrittenDown keycloakId t ⟨.mas (.deactivateUser a.id), .ok ()⟩

/-- The Keycloak account is on, that is on record, and the MAS account `id`
was found deactivated. -/
def RevivalDue (t : List Exchange) (id : String) : Prop :=
  wf.WrittenDown keycloakId t ⟨.keycloak (.enableUser keycloakId), .ok ()⟩ ∧
    ∃ a, LookedUp keycloakId t (.ok (some a)) ∧ a.id = id ∧
      a.deactivatedAt.isSome

/-- What the exchanges so far must show before a call is sent. -/
def Gate (t : List Exchange) : Call → Prop
  | .synapse (.kickUserFromRoom ..) => wf.DisableWritten keycloakId t
  | .mas (.deactivateUser _) =>
      match wf with
      | .offboard .. => wf.DisableWritten keycloakId t
      | _ => True
  | .keycloak (.deleteUser _) => wf.MasOutOfTheWay keycloakId t
  | .mas (.reactivateUser id) => wf.RevivalDue keycloakId t id
  | _ => True

end AccountWorkflow

end MatrixIdentityAdmin.Ref
