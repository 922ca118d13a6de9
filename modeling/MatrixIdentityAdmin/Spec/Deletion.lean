import MatrixIdentityAdmin.Ref.Workflows
import MatrixIdentityAdmin.Spec.World

/-!
# What a deletion says about itself

The three ends of a deletion are three things an admin may be told, and each is
true or not of what was exchanged and of the world it leaves. The world here is
one in which a call that came back `Ok` took effect and one that came back `Err`
did not, so that the exchanges say what happened.
-/

namespace MatrixIdentityAdmin.Ref

open MatrixIdentityAdmin.Lib

/-- A call is served, or it fails and has done nothing. -/
def World.atomic : Env Call Answer World where
  pre _ _ := True
  step w c x w' := w.serve c = (x, w') ∨ (∃ e, x = .error e) ∧ w' = w

namespace Deletion

variable (keycloakId : String) (t : List Exchange)

/-- A MAS account was found and deactivated. -/
def MasDeactivated : Prop :=
  ∃ n a, ⟨.mas (.getUserByUsername n), .ok (some a)⟩ ∈ t ∧
    ⟨.mas (.deactivateUser a.id), .ok ()⟩ ∈ t

def Succeeded : Prop := ⟨.keycloak (.deleteUser keycloakId), .ok ()⟩ ∈ t

def Failed : Prop :=
  ∃ e, ⟨.keycloak (.deleteUser keycloakId), .error e⟩ ∈ t

/-- What is reported is so: an error leaves the record there to try again, and
the other two ends are the ones that were reached. -/
structure Truthful (w w' : World) (result : Result DeleteUserResult) : Prop where
  err : ∀ e, result = .error e → w.realm.byId keycloakId ≠ none →
    w'.realm.byId keycloakId ≠ none
  partialFailure : (∃ outcome, result = .ok (.partialFailure outcome)) ↔
    MasDeactivated t ∧ Failed keycloakId t
  deleted : (∃ outcome, result = .ok (.deleted outcome)) ↔ Succeeded keycloakId t

/-- The entry about the deletion is lost only where there is nothing to tell but
the failure itself. -/
def LosesNothing : Prop :=
  ∀ entry e, ⟨.audit entry, .error e⟩ ∈ t → entry.action = "delete_keycloak_user" →
    Failed keycloakId t ∧ ¬ MasDeactivated t

end Deletion

end MatrixIdentityAdmin.Ref
