import MatrixIdentityAdmin.Lib.Exec
import MatrixIdentityAdmin.Ref.AccountHandlers
import MatrixIdentityAdmin.Ref.Users
import MatrixIdentityAdmin.Spec.Account
import MatrixIdentityAdmin.Spec.Reading

/-!
# Who a workflow acts on

The workflows take the Matrix id of a user from a Keycloak username, each on
its own. Which username that was is read back from the calls: it is the one of
the record that was fetched, and in a bulk request the enabled users of a page
come up one after the other, each with a read of the groups.

`AgreesOn` compares what is then done with `IdentityMapper::derive_matrix_id`:
a derived id is the only one a call names, and without one no membership and no
power level is changed.
-/

namespace MatrixIdentityAdmin.Ref

open MatrixIdentityAdmin.Lib

/-- The workflows that turn a username into a Matrix id. -/
inductive IdentityWorkflow where
  | reconcile (keycloakId csrf : String)
  | reconcilePreview (keycloakId csrf : String)
  | bulkReconcile (fuel : Nat) (csrf : String)
  | account (wf : AccountWorkflow) (keycloakId : String)

namespace IdentityWorkflow

variable (state : AppState) (admin : Admin)

/-- The calls of a workflow, its result left aside. -/
def run : IdentityWorkflow → Async Unit
  | .reconcile keycloakId csrf => (Ref.reconcile state admin keycloakId csrf).shape
  | .reconcilePreview keycloakId csrf =>
      (Ref.reconcilePreview state admin keycloakId csrf).shape
  | .bulkReconcile fuel csrf => (Ref.bulkReconcile state admin fuel csrf).shape
  | .account wf keycloakId =>
      (wf.run keycloakId admin.subject admin.username state.homeserverDomain).shape

/-- Can the workflow get to changing somebody's standing in a room? -/
def Moves : IdentityWorkflow → Prop
  | .reconcile _ csrf => admin.csrfToken = csrf ∧ state.synapse = true
  | .reconcilePreview .. => False
  | .bulkReconcile fuel csrf =>
      admin.csrfToken = csrf ∧ state.synapse = true ∧ fuel ≠ 0
  | .account (.offboard synapse bindings) _ => synapse = true ∧ bindings ≠ []
  | .account .. => False

end IdentityWorkflow

/-! ## The username in hand -/

/-- The username last taken up, and the users of the page still to come. -/
structure InHand where
  username : Option String
  queue : List KeycloakUser

namespace InHand

def start : InHand := ⟨none, []⟩

/-- The next user of the page; outside a page nothing changes. -/
def next (rd : InHand) : InHand :=
  match rd.queue with
  | [] => rd
  | u :: queue => ⟨some u.username, queue⟩

def step (rd : InHand) : Exchange → InHand
  | ⟨.keycloak (.getUser _), .ok u⟩ => { rd with username := some u.username }
  | ⟨.keycloak (.searchUsers ..), .ok page⟩ =>
      { rd with queue := page.filter (·.enabled) }
  | ⟨.keycloak (.getUserGroups _), _⟩ => rd.next
  | _ => rd

def of (t : List Exchange) : InHand := t.foldl step start

end InHand

/-! ## What is done for it -/

/-- The Matrix id a call acts on or writes down. -/
def Call.names : Call → Option String
  | .synapse (.forceJoinUser u _) => some u
  | .synapse (.kickUserFromRoom u _ _) => some u
  | .synapse (.setPowerLevel _ u _) => some u
  | .audit entry => entry.targetMatrixUserId
  | _ => none

/-- A call made for a username is about the id derived from it; where none can
be derived it changes nobody's standing in a room. -/
def IdentityMapper.Allows (mapper : IdentityMapper) (username : String)
    (c : Call) : Prop :=
  match mapper.deriveMatrixId username with
  | some m => ∀ u, c.names = some u → u = m
  | none => c.mutates = none

/-- The preview was made for this Matrix id: every room it lists was read, and
is listed by whether the id was among the members. -/
structure ReconcilePreview.MadeFor (m : String) (t : List Exchange)
    (p : ReconcilePreview) : Prop where
  joins : ∀ a ∈ p.joins, ∃ members : List String, m ∉ members ∧
    ⟨.synapse (.getJoinedRoomMembers a.roomId), .ok members⟩ ∈ t
  kicks : ∀ a ∈ p.kicks, ∃ members : List String, m ∈ members ∧
    ⟨.synapse (.getJoinedRoomMembers a.roomId), .ok members⟩ ∈ t
  alreadyCorrect : ∀ a ∈ p.alreadyCorrect, ∃ members : List String,
    m ∈ members ∧ ⟨.synapse (.getJoinedRoomMembers a.roomId), .ok members⟩ ∈ t

namespace IdentityWorkflow

variable (state : AppState) (admin : Admin)

def mapper (state : AppState) : IdentityMapper := ⟨state.homeserverDomain⟩

/-- Whenever the workflow has this username in hand, it is about the Matrix id
`derive_matrix_id` has for it. -/
structure AgreesOn (wf : IdentityWorkflow) (username : String) : Prop where
  calls : ∀ t c k, (wf.run state admin).Reaches t (.call c k) →
    (InHand.of t).username = some username →
    (mapper state).Allows username c
  preview : ∀ keycloakId csrf, wf = .reconcilePreview keycloakId csrf →
    ∀ t p, (Ref.reconcilePreview state admin keycloakId csrf).Runs t (.ok p) →
    (InHand.of t).username = some username →
    ∀ m, (mapper state).deriveMatrixId username = some m → p.MadeFor m t

/-- At some point of some run the workflow is about to change the standing of
this Matrix id in a room, with this username in hand. -/
def ActsOn (wf : IdentityWorkflow) (username matrixUserId : String) : Prop :=
  ∃ t c k, (wf.run state admin).Reaches t (.call c k) ∧
    (InHand.of t).username = some username ∧ c.mutates ≠ none ∧
    c.names = some matrixUserId

end IdentityWorkflow

/-- One colon, and the homeserver after it. -/
def OneColon (homeserverDomain matrixUserId : String) : Prop :=
  ∃ localpart : List Char, ':' ∉ localpart ∧
    matrixUserId.toList = '@' :: localpart ++ ':' :: homeserverDomain.toList

end MatrixIdentityAdmin.Ref
