import MatrixIdentityAdmin.Ref.Handlers
import MatrixIdentityAdmin.Spec.Touches

/-!
# Reconciling requests, one after the other

A request is one of the two handlers with what its extractors hand it. A
session is a list of requests served in turn on one bad day or another: each
is finished, or dropped at some point along the way, before the next one
starts, and nothing else changes the world in between.
-/

namespace MatrixIdentityAdmin.Ref

open MatrixIdentityAdmin.Lib

/-- The two requests that reconcile. -/
inductive ReconcileRequest where
  | single (admin : Admin) (keycloakId csrf : String)
  | bulk (admin : Admin) (csrf : String) (fuel : Nat)
deriving DecidableEq, Repr

namespace ReconcileRequest

variable (state : AppState)

/-- What serving a request runs, the response left aside. -/
def body : ReconcileRequest → Async Unit
  | .single admin keycloakId csrf => (reconcile state admin keycloakId csrf).shape
  | .bulk admin csrf fuel => (bulkReconcile state admin fuel csrf).shape

/-- A request for the one record that its guards let through. Neither of the
guards looks at the record. -/
def Admitted (keycloakId : String) : ReconcileRequest → Prop
  | .single admin id csrf =>
      id = keycloakId ∧ admin.csrfToken = csrf ∧ state.synapse = true
  | .bulk .. => False

end ReconcileRequest

/-- Reconcile requests served one after the other, each to its end or dropped on the
way, and what the worlds between them are. -/
inductive Session (state : AppState) :
    World → List ReconcileRequest → List Exchange → World → Prop where
  | done (w : World) : Session state w [] [] w
  | next {w w₁ w₂ : World} {req : ReconcileRequest}
      {reqs : List ReconcileRequest} {t ts : List Exchange} {rest : Async Unit}
      (served : (req.body state).Reaches t rest) (path : World.env.Path w t w₁)
      (later : Session state w₁ reqs ts w₂) :
      Session state w (req :: reqs) (t ++ ts) w₂

/-- Some binding the record `keycloakId` matches. -/
def World.Matched (w : World) (keycloakId : String) : Prop :=
  ∃ b ∈ w.bindings, userMatchesBinding b
    ((w.groups keycloakId).map (·.name)) ((w.roles keycloakId).map (·.name)) =
      true

end MatrixIdentityAdmin.Ref
