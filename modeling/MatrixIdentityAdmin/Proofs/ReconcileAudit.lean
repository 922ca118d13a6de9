import MatrixIdentityAdmin.Lib.Exec
import MatrixIdentityAdmin.Spec.Reading
import MatrixIdentityAdmin.Proofs.ReconcileSteps
import Mathlib.Data.List.Perm.Subperm

/-!
# What the reconciliation writes down

Joins and kicks are written down one for one and in order: between either and
its entry nothing else happens, so the book that counts only those is settled
at the end of every run. Power levels are not written down at all. A run is
therefore audited exactly when it sets none, and some run sets one as soon as
a matched binding carries one.
-/

namespace MatrixIdentityAdmin.Ref

open MatrixIdentityAdmin.Lib

variable {keycloakId matrixUserId actorSubject actorUsername : String}
  {groups roles : List String} {rest : List PolicyBinding}
  {b : PolicyBinding} {targets : List String} {r : String}

/-! ## Joins and kicks -/

/-- The book of joins and kicks, with the binding `b` in hand and nothing
owed. -/
abbrev clear (rest : List PolicyBinding) (b : PolicyBinding)
    (targets : List String) (s : Reading × Option ActionLine) : Prop :=
  ∃ since, s = (⟨rest, some ⟨b, targets, since⟩⟩, none)

end MatrixIdentityAdmin.Ref
