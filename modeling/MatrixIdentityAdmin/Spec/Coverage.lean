import MatrixIdentityAdmin.Lib.Hoare
import MatrixIdentityAdmin.Lib.Paging
import MatrixIdentityAdmin.Ref.Handlers

/-!
# Once through the realm

The bulk request pages through the realm and takes the users of a page one after
the other. What it exchanged is laid out here in the order in which it happened:
pages, one for each search that was answered, and on a page rounds, one for each
user. A round is nothing but what the code did about its user, so that a layout
of all that was exchanged leaves room for nothing else.
-/

namespace MatrixIdentityAdmin.Ref

open MatrixIdentityAdmin.Lib

/-! ## The realm -/

/-- The answers of a realm of these users, in this order: they are counted, and a
search for everybody finds a slice of them or fails. -/
def KeycloakCall.fits (users : List KeycloakUser) : (c : Call) → Answer c → Prop
  | .keycloak (.countUsers query), x => query = "" → x = .ok users.length.toUInt32
  | .keycloak (.searchUsers query max first), x => query = "" →
      x = .ok (Paging.slice max.toNat first.toNat users) ∨ ∃ e, x = .error e
  | _, _ => True

/-- The realm stays the same, and everything else may answer as it likes. -/
def usersEnv (users : List KeycloakUser) : Env Call Answer Unit where
  pre _ _ := True
  step _ c x _ := KeycloakCall.fits users c x

/-! ## What was done -/

/-- The names of the roles a reconciliation is given. -/
def heldRoles : Result (List KeycloakRole) → List String
  | .ok roles => roles.map (·.name)
  | .error _ => []

section

variable (state : AppState) (admin : Admin) (bindings : List PolicyBinding)

/-- What was exchanged about a user, and whether they were reconciled: an enabled
user whose groups came back, once. -/
inductive Considered (u : KeycloakUser) : List Exchange → Bool → Prop where
  | disabled (h : u.enabled = false) : Considered u [] false
  | noGroups (h : u.enabled = true) (e : AppError) :
      Considered u [⟨.keycloak (.getUserGroups u.id), .error e⟩] false
  | reconciled (h : u.enabled = true) (groups : List KeycloakGroup)
      (roles : Result (List KeycloakRole)) (t : List Exchange) (o : WorkflowOutcome)
      (run : (reconcileMembership u.id (matrixId u.username state.homeserverDomain)
        (groups.map (·.name)) (heldRoles roles) admin.subject admin.username
        bindings).Runs t (.ok o)) :
      Considered u (⟨.keycloak (.getUserGroups u.id), .ok groups⟩ ::
        ⟨.keycloak (.getUserRoles u.id), roles⟩ :: t) true

/-- A user of a page, and what the loop did about them. -/
structure Round where
  user : KeycloakUser
  trace : List Exchange
  reconciled : Bool
  considered : Considered state admin bindings user trace reconciled

/-- A search that was answered with the users of the rounds, and the rounds. -/
structure RoundsPage where
  first : UInt32
  rounds : List (Round state admin bindings)

end

section

variable {state : AppState} {admin : Admin} {bindings : List PolicyBinding}

/-- The search of a page. -/
def pageSearch (first : UInt32) (x : Result (List KeycloakUser)) : Exchange :=
  ⟨.keycloak (.searchUsers "" pageSize first), x⟩

namespace RoundsPage

def trace (page : RoundsPage state admin bindings) : List Exchange :=
  pageSearch page.first (.ok (page.rounds.map Round.user)) ::
    page.rounds.flatMap Round.trace

/-- The rounds of all the pages. -/
def allRounds (pages : List (RoundsPage state admin bindings)) :
    List (Round state admin bindings) := pages.flatMap RoundsPage.rounds

def traces (pages : List (RoundsPage state admin bindings)) : List Exchange :=
  pages.flatMap trace

end RoundsPage

end

section

variable (state : AppState) (admin : Admin) (users : List KeycloakUser)

/-- The loop went through all the users and counted them, or through those on the
pages before a search that failed. -/
inductive Covers (bindings : List PolicyBinding) :
    List Exchange → Result BulkReconcileResult → Prop where
  | all (pages : List (RoundsPage state admin bindings)) (last : List Exchange)
      (result : BulkReconcileResult)
      (ended : last = [] ∨ ∃ first, last = [pageSearch first (.ok [])])
      (once : (RoundsPage.allRounds pages).map Round.user = users)
      (processed : result.usersProcessed =
        (RoundsPage.allRounds pages).countP fun rd => rd.reconciled)
      (skipped : result.usersSkipped =
        (RoundsPage.allRounds pages).countP fun rd => !rd.reconciled) :
      Covers bindings (RoundsPage.traces pages ++ last) (.ok result)
  | broken (pages : List (RoundsPage state admin bindings)) (first : UInt32)
      (e : AppError)
      (earlier : (RoundsPage.allRounds pages).map Round.user =
        users.take first.toNat) :
      Covers bindings (RoundsPage.traces pages ++ [pageSearch first (.error e)]) (.error e)

/-- A bulk request: refused, without its bindings, or through with its loop. -/
inductive BulkRun (csrf : String) :
    List Exchange → Result BulkReconcileResult → Prop where
  | refused (h : admin.csrfToken ≠ csrf ∨ state.synapse = false) (e : AppError) :
      BulkRun csrf [] (.error e)
  | unlisted (h : admin.csrfToken = csrf ∧ state.synapse = true) (e : AppError) :
      BulkRun csrf [⟨.keycloak (.countUsers ""), .ok users.length.toUInt32⟩,
        ⟨.policy .listBindings, .error e⟩] (.error e)
  | through (h : admin.csrfToken = csrf ∧ state.synapse = true)
      (bindings : List PolicyBinding) (t : List Exchange)
      (r : Result BulkReconcileResult) (covers : Covers state admin users bindings t r) :
      BulkRun csrf (⟨.keycloak (.countUsers ""), .ok users.length.toUInt32⟩ ::
        ⟨.policy .listBindings, .ok bindings⟩ :: t) r

end

end MatrixIdentityAdmin.Ref
