import MatrixIdentityAdmin.Ref.Calls

/-!
# `services/reconcile_membership.rs`

The two nested loops of the reconciliation, over the bindings and over the
rooms a binding expands to, and the preview that walks the same rooms
without touching them. A `continue` of the source is the end of an iteration
here, so each iteration is a function of its own from the outcome so far to
the outcome after it.
-/

namespace MatrixIdentityAdmin.Ref

open MatrixIdentityAdmin.Lib

/-- The rooms a binding of `roomId` stands for when its child lookup came
back with `children`. -/
def expansion (roomId : String) : Except AppError (List String) → List String
  | .ok [] => [roomId]
  | .ok (child :: children) => roomId :: child :: children
  | .error _ => [roomId]

/-- `expand_targets`: the rooms, and the warnings it was handed with its own
pushed onto them. -/
def expandTargets (roomId : String) (warnings : List String) :
    Async (List String × List String) := do
  let r ← Synapse.getSpaceChildren roomId
  match r with
  | .ok _ => return (expansion roomId r, warnings)
  | .error e =>
      return (expansion roomId r,
        warnings ++ [s!"Could not check space children for {roomId}: {e}"])

/-- `user_matches_binding`. -/
def userMatchesBinding (binding : PolicyBinding)
    (keycloakGroups keycloakRoles : List String) : Bool :=
  match binding.subject with
  | .group g => keycloakGroups.contains g
  | .role r => keycloakRoles.contains r

section

variable (keycloakId matrixUserId : String)

/-- The entry written for a join or a kick. -/
def reconcileEntry (actorSubject actorUsername : String) (action : String)
    (binding : PolicyBinding) (targetRoomId : String) (result : AuditResult) :
    AuditEntry where
  adminSubject := actorSubject
  adminUsername := actorUsername
  targetKeycloakUserId := some keycloakId
  targetMatrixUserId := some matrixUserId
  action := action
  result := result
  metadata := [("room_id", .str targetRoomId),
    ("subject", .str (toString binding.subject))]

variable (actorSubject actorUsername : String) (binding : PolicyBinding)

/-- The power level of a binding, set after a join that succeeded. -/
def grantPowerLevel (targetRoomId : String) (outcome : WorkflowOutcome) :
    Async WorkflowOutcome :=
  match binding.powerLevel with
  | none => return outcome
  | some level => do
      let result ← Synapse.setPowerLevel targetRoomId matrixUserId level
      return outcome.warnOn result fun e =>
        s!"Joined {matrixUserId} to {targetRoomId} but could not set power level {level}: {e}"

/-- One round of the join loop: a room of a binding the user matches. -/
def joinTarget (outcome : WorkflowOutcome) (targetRoomId : String) :
    Async WorkflowOutcome := do
  match ← Synapse.getJoinedRoomMembers targetRoomId with
  | .error e =>
      return outcome.addWarning s!"Could not fetch members of {targetRoomId}: {e}"
  | .ok members =>
      if members.contains matrixUserId then
        return outcome
      else do
        let result ← Synapse.forceJoinUser matrixUserId targetRoomId
        let outcome ← logOrWarn outcome
          (reconcileEntry keycloakId matrixUserId actorSubject actorUsername
            "join_room_on_reconcile" binding targetRoomId (.of result))
        match result with
        | .error e =>
            return outcome.addWarning s!"Could not join {matrixUserId} to {targetRoomId}: {e}"
        | .ok () => grantPowerLevel matrixUserId binding targetRoomId outcome

/-- One round of the kick loop: a room of a binding the user does not match
and that allows removal. -/
def kickTarget (outcome : WorkflowOutcome) (targetRoomId : String) :
    Async WorkflowOutcome := do
  match ← Synapse.getJoinedRoomMembers targetRoomId with
  | .error e =>
      return outcome.addWarning s!"Could not fetch members of {targetRoomId}: {e}"
  | .ok members =>
      if !members.contains matrixUserId then
        return outcome
      else do
        let result ← Synapse.kickUserFromRoom matrixUserId targetRoomId
          s!"Removed: no longer matches {binding.subject}"
        let outcome ← logOrWarn outcome
          (reconcileEntry keycloakId matrixUserId actorSubject actorUsername
            "kick_room_on_reconcile" binding targetRoomId (.of result))
        return outcome.warnOn result fun e =>
          s!"Could not kick {matrixUserId} from {targetRoomId}: {e}"

end

section

variable (keycloakId matrixUserId : String)
  (keycloakGroups keycloakRoles : List String)
  (actorSubject actorUsername : String)

/-- One round of the outer loop: joins in forward order, kicks in reverse. -/
def reconcileBinding (outcome : WorkflowOutcome) (binding : PolicyBinding) :
    Async WorkflowOutcome := do
  let isMatch := userMatchesBinding binding keycloakGroups keycloakRoles
  let (targets, warnings) ← expandTargets binding.target.roomId outcome.warnings
  let outcome : WorkflowOutcome := ⟨warnings⟩
  if isMatch then
    targets.foldlM (joinTarget keycloakId matrixUserId actorSubject
      actorUsername binding) outcome
  else if binding.allowRemove then
    targets.reverse.foldlM (kickTarget keycloakId matrixUserId actorSubject
      actorUsername binding) outcome
  else
    return outcome

/-- `reconcile_membership`. -/
def reconcileMembership (bindings : List PolicyBinding) :
    Async (Result WorkflowOutcome) := do
  let outcome ← bindings.foldlM (reconcileBinding keycloakId matrixUserId
    keycloakGroups keycloakRoles actorSubject actorUsername) WorkflowOutcome.ok
  return .ok outcome

end

/-! ## The preview -/

/-- `RoomAction`. -/
structure RoomAction where
  roomId : String
  subject : String
  powerLevel : Option Int
deriving DecidableEq, Repr

/-- `ReconcilePreview`. -/
structure ReconcilePreview where
  joins : List RoomAction
  kicks : List RoomAction
  alreadyCorrect : List RoomAction
  warnings : List String
deriving DecidableEq, Repr

/-- `ReconcilePreview::default()`. -/
def ReconcilePreview.empty : ReconcilePreview := ⟨[], [], [], []⟩

section

variable (matrixUserId : String)

/-- One round of the preview's inner loop. -/
def previewTarget (binding : PolicyBinding) (isMatch : Bool)
    (preview : ReconcilePreview) (targetRoomId : String) :
    Async ReconcilePreview := do
  match ← Synapse.getJoinedRoomMembers targetRoomId with
  | .error e =>
      return { preview with warnings := preview.warnings ++
        [s!"Could not fetch members of {targetRoomId}: {e}"] }
  | .ok members =>
      let inRoom := members.contains matrixUserId
      let action : RoomAction :=
        ⟨targetRoomId, toString binding.subject, binding.powerLevel⟩
      if isMatch && !inRoom then
        return { preview with joins := preview.joins ++ [action] }
      else if binding.allowRemove && !isMatch && inRoom then
        return { preview with kicks := preview.kicks ++ [action] }
      else if isMatch && inRoom then
        return { preview with
          alreadyCorrect := preview.alreadyCorrect ++ [action] }
      else
        return preview

/-- One round of the preview's outer loop. -/
def previewBinding (keycloakGroups keycloakRoles : List String)
    (preview : ReconcilePreview) (binding : PolicyBinding) :
    Async ReconcilePreview := do
  let isMatch := userMatchesBinding binding keycloakGroups keycloakRoles
  let (targets, warnings) ← expandTargets binding.target.roomId preview.warnings
  targets.foldlM (previewTarget matrixUserId binding isMatch)
    { preview with warnings := warnings }

/-- `preview_membership`. -/
def previewMembership (bindings : List PolicyBinding)
    (keycloakGroups keycloakRoles : List String) :
    Async (Result ReconcilePreview) := do
  let preview ← bindings.foldlM
    (previewBinding matrixUserId keycloakGroups keycloakRoles) ReconcilePreview.empty
  return .ok preview

end

end MatrixIdentityAdmin.Ref
