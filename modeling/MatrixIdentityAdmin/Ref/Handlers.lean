import MatrixIdentityAdmin.Ref.Text
import MatrixIdentityAdmin.Ref.Workflows

/-!
# `handlers/reconcile.rs`, `handlers/bulk_reconcile.rs`

The two requests that lead into `reconcile_membership`. A handler is given
what its extractors hand it, the signed-in admin and the submitted form, and
returns what it redirects to or renders from.

The paging loop of the bulk handler stops when Keycloak hands it a short
page, which nothing on this side guarantees; it runs on explicit fuel here,
and an answer of `none` means the fuel ran out, not that the handler
returned.
-/

namespace MatrixIdentityAdmin.Ref

open MatrixIdentityAdmin.Lib

/-- `auth::session::AuthenticatedAdmin`. -/
structure Admin where
  subject : String
  username : String
  csrfToken : String
deriving DecidableEq, Repr

/-- What the handlers read of `AppState` and its configuration; the services
themselves are reached by calls. -/
structure AppState where
  homeserverDomain : String
  synapse : Bool
deriving DecidableEq, Repr

/-- `auth::csrf::validate`. The comparison is constant-time in the source,
which is equality as far as the result goes. -/
def validate (sessionToken submittedToken : String) : Result Unit :=
  if sessionToken = submittedToken then .ok ()
  else .error (.validation "Invalid CSRF token.")

/-! ## The flash redirect -/

/-- The byte-wise encoder of `utils::pct_encode`. -/
def pctEncodeByte (b : UInt8) : List Char :=
  let c := Char.ofNat b.toNat
  let hexDigit (n : Nat) : Char :=
    if n < 10 then Char.ofNat (48 + n) else Char.ofNat (55 + n)
  if c.isAlphanum || c = '-' || c = '_' || c = '.' || c = '~' then [c]
  else if c = ' ' then ['+']
  else ['%', hexDigit (b.toNat / 16), hexDigit (b.toNat % 16)]

/-- `utils::pct_encode`. -/
def pctEncode (s : String) : String :=
  String.ofList (s.toUTF8.toList.flatMap pctEncodeByte)

/-- The warnings of an outcome as they go into a query, cut off after 400
bytes; `none` is a panic. -/
def truncatedWarning (outcome : WorkflowOutcome) : Option String :=
  let warning := pctEncode outcome.warningSummary
  if Text.len warning > 400 then
    (Text.truncate warning 400).map fun warning => warning ++ "%E2%80%A6"
  else some warning

/-- Their text. What is cut is ASCII, so there is one. -/
def encodedWarning (outcome : WorkflowOutcome) : String :=
  (truncatedWarning outcome).getD ""

/-- The redirect to the user's page with the outcome in its query. -/
def flashRedirect (keycloakId : String) (outcome : WorkflowOutcome)
    (notice : String) : String :=
  if outcome.hasWarnings then
    s!"/users/{keycloakId}?warning={encodedWarning outcome}"
  else
    s!"/users/{keycloakId}?notice={pctEncode notice}"

/-! ## Reconciling one user -/

section

variable (state : AppState) (admin : Admin)

/-- The body of `handlers::reconcile::reconcile` up to its outcome. -/
def reconcileUser (keycloakId csrf : String) : Async (Result WorkflowOutcome) :=
  match validate admin.csrfToken csrf with
  | .error e => return .error e
  | .ok () =>
      if !state.synapse then
        return .error (.notFound
          "Synapse is not configured — reconciliation is unavailable")
      else
        (Keycloak.getUser keycloakId).andThen fun kcUser =>
        (Keycloak.getUserGroups keycloakId).andThen fun kcGroups =>
        (Keycloak.getUserRoles keycloakId).andThen fun kcRoles =>
        listBindings.andThen fun bindings =>
          reconcileMembership keycloakId
            (matrixId kcUser.username state.homeserverDomain)
            (kcGroups.map (·.name)) (kcRoles.map (·.name))
            admin.subject admin.username bindings

/-- `handlers::reconcile::reconcile`. -/
def reconcile (keycloakId csrf : String) : Async (Result String) :=
  (reconcileUser state admin keycloakId csrf).andThen fun outcome =>
    return .ok (flashRedirect keycloakId outcome "Room membership reconciled")

/-! ## Reconciling everybody -/

def maxBulkReconcileUsers : UInt32 := 1000

def pageSize : UInt32 := 100

/-- What the result page is rendered from. -/
structure BulkReconcileResult where
  usersProcessed : Nat
  usersSkipped : Nat
  warnings : List String
deriving DecidableEq, Repr

namespace BulkReconcileResult

def empty : BulkReconcileResult := ⟨0, 0, []⟩

def skip (r : BulkReconcileResult) : BulkReconcileResult :=
  { r with usersSkipped := r.usersSkipped + 1 }

def warn (r : BulkReconcileResult) (msgs : List String) : BulkReconcileResult :=
  { r with warnings := r.warnings ++ msgs }

def processed (r : BulkReconcileResult) : BulkReconcileResult :=
  { r with usersProcessed := r.usersProcessed + 1 }

end BulkReconcileResult

/-- The role names `bulk_reconcile` goes on with, and the warning it keeps
when they could not be fetched: an empty list then, rather than a skip. -/
def bulkRoleNames (kcUser : KeycloakUser) (acc : BulkReconcileResult) :
    Result (List KeycloakRole) → List String × BulkReconcileResult
  | .ok roles => (roles.map (·.name), acc)
  | .error e =>
      ([], acc.warn [s!"{kcUser.username}: could not fetch roles — {e}"])

/-- What the end of one user's reconciliation adds to the tally. -/
def bulkTally (kcUser : KeycloakUser) (acc : BulkReconcileResult) :
    Result WorkflowOutcome → BulkReconcileResult
  | .ok o =>
      acc.processed.warn (o.warnings.map fun w => s!"{kcUser.username}: {w}")
  | .error e =>
      (acc.warn [s!"{kcUser.username}: reconcile failed — {e}"]).skip

/-- One round of the user loop of `bulk_reconcile`. -/
def bulkReconcileUser (allBindings : List PolicyBinding)
    (acc : BulkReconcileResult) (kcUser : KeycloakUser) :
    Async BulkReconcileResult := do
  if !kcUser.enabled then
    return acc.skip
  else
    match ← Keycloak.getUserGroups kcUser.id with
    | .error e =>
        return (acc.warn
          [s!"{kcUser.username}: could not fetch groups — {e}"]).skip
    | .ok kcGroups => do
        let kcRoles ← Keycloak.getUserRoles kcUser.id
        let (roleNames, acc) := bulkRoleNames kcUser acc kcRoles
        let outcome ← reconcileMembership kcUser.id
          (matrixId kcUser.username state.homeserverDomain)
          (kcGroups.map (·.name)) roleNames admin.subject admin.username
          allBindings
        return bulkTally kcUser acc outcome

/-- The paging loop of `bulk_reconcile`. -/
def bulkReconcilePages (allBindings : List PolicyBinding) :
    Nat → UInt32 → BulkReconcileResult →
      Async (Option (Result BulkReconcileResult))
  | 0, _, _ => return none
  | fuel + 1, first, acc => do
      match ← Keycloak.searchUsers "" pageSize first with
      | .error e => return some (.error e)
      | .ok page =>
          if page.isEmpty then
            return some (.ok acc)
          else do
            let fetched := page.length.toUInt32
            let acc ← page.foldlM (bulkReconcileUser state admin allBindings) acc
            if fetched < pageSize then
              return some (.ok acc)
            else
              bulkReconcilePages allBindings fuel (first + fetched) acc

/-- `handlers::bulk_reconcile::bulk_reconcile`, up to the rendering of its
page. -/
def bulkReconcile (fuel : Nat) (csrf : String) :
    Async (Option (Result BulkReconcileResult)) :=
  match validate admin.csrfToken csrf with
  | .error e => return some (.error e)
  | .ok () =>
      if !state.synapse then
        return some (.error (.notFound
          "Synapse is not configured — reconciliation is unavailable"))
      else do
        match ← Keycloak.countUsers "" with
        | .error e => return some (.error e)
        | .ok total =>
            if total > maxBulkReconcileUsers then
              return some (.error (.validation
                s!"Bulk reconcile is limited to {maxBulkReconcileUsers} users per request."))
            else
              match ← listBindings with
              | .error e => return some (.error e)
              | .ok allBindings =>
                  bulkReconcilePages state admin allBindings fuel 0 .empty

end

end MatrixIdentityAdmin.Ref
