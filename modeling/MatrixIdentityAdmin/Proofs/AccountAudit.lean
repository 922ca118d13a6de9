import MatrixIdentityAdmin.Spec.Account

/-!
# The account workflows write down what they do

Each step makes its call and writes its entry before anything else happens,
whatever either comes back with. So each step is neat in the sense of the
ledger, the workflows are put together from neat pieces, and what the ledger
says of neat programs holds of them at every point of every run.
-/

namespace MatrixIdentityAdmin.Ref

open MatrixIdentityAdmin.Lib

variable {w : AccountWorkflow}
  {keycloakId matrixUserId adminSubject adminUsername homeserverDomain : String}

theorem accountBook_exclusive : (accountBook w keycloakId).Exclusive := by
  intro s c x k hn
  cases c with
  | audit entry => rfl
  | keycloak c => cases hn
  | mas c => cases hn
  | synapse c => cases hn
  | policy c => cases hn

/-! ## The steps -/

theorem revokeSession_neat (outcome : WorkflowOutcome) (session : MasSession) :
    (accountBook w keycloakId).Neat (revokeSession w.context keycloakId
      matrixUserId adminSubject adminUsername outcome session) :=
  Book.Neat.deed rfl (fun _ => rfl) (fun _ => rfl) fun _ _ => Book.Neat.ret

theorem revokeAuthSessions_neat (username : String) :
    (accountBook w keycloakId).Neat (revokeAuthSessions w.context keycloakId
      matrixUserId adminSubject adminUsername username) := by
  refine Book.Neat.look rfl (fun _ => rfl) fun x => ?_
  cases x with
  | error e => exact Book.Neat.ret
  | ok found =>
      cases found with
      | none => exact Book.Neat.ret
      | some authUser =>
          refine Book.Neat.look rfl (fun _ => rfl) fun y => ?_
          cases y with
          | error e => exact Book.Neat.ret
          | ok listed => exact Book.Neat.foldlM revokeSession_neat _ _

theorem forceIdentityLogout_neat :
    (accountBook w keycloakId).Neat (forceIdentityLogout w.context keycloakId
      matrixUserId adminSubject adminUsername) :=
  Book.Neat.deed rfl (fun _ => rfl) (fun _ => rfl) fun _ _ => Book.Neat.ret

/-! The fatal steps end with whichever of the two calls failed; both have been
made by then. -/

theorem disableIdentityAccount_neat (username : String) :
    (accountBook w keycloakId).Neat (disableIdentityAccount w.context
      keycloakId matrixUserId adminSubject adminUsername username) := by
  refine Book.Neat.deed rfl (fun _ => rfl) (fun _ => rfl) fun x y => ?_
  cases y with
  | error e => exact Book.Neat.ret
  | ok u => exact Book.Neat.ret

theorem enableIdentityAccount_neat (username : String) :
    (accountBook w keycloakId).Neat (enableIdentityAccount w.context
      keycloakId matrixUserId adminSubject adminUsername username) := by
  refine Book.Neat.deed rfl (fun _ => rfl) (fun _ => rfl) fun x y => ?_
  cases y with
  | error e => exact Book.Neat.ret
  | ok u => exact Book.Neat.ret

/-- Only `delete_user` has a name of its own for the deactivation. -/
theorem deactivateAuthAccount_neat {authUserId : String}
    (hw : w.action (.mas (.deactivateUser authUserId)) =
      some s!"deactivate_auth_account_on_{w.context}") (username : String) :
    (accountBook w keycloakId).Neat (deactivateAuthAccount w.context
      keycloakId matrixUserId adminSubject adminUsername authUserId
      username) := by
  refine Book.Neat.deed rfl
    (fun x => congrArg (Option.map fun action =>
      (⟨some keycloakId, action, .of x⟩ : AccountLine)) hw)
    (fun _ => rfl) fun x y => ?_
  cases y with
  | error e => exact Book.Neat.ret
  | ok u => exact Book.Neat.ret

theorem reactivateAuthAccount_neat (authUserId username : String) :
    (accountBook w keycloakId).Neat (reactivateAuthAccount w.context
      keycloakId matrixUserId adminSubject adminUsername authUserId username) :=
  Book.Neat.deed rfl (fun _ => rfl) (fun _ => rfl) fun _ _ => Book.Neat.ret

theorem kickMappedRoom_neat (binding : PolicyBinding)
    (outcome : WorkflowOutcome) (room : String) :
    (accountBook w keycloakId).Neat (kickMappedRoom w.context keycloakId
      matrixUserId adminSubject adminUsername binding outcome room) := by
  refine Book.Neat.look rfl (fun _ => rfl) fun x => ?_
  cases x with
  | error e => exact Book.Neat.ret
  | ok members =>
      show (accountBook w keycloakId).Neat
        (if !List.contains members matrixUserId then _ else _)
      split
      · exact Book.Neat.ret
      · exact Book.Neat.deed rfl (fun _ => rfl) (fun _ => rfl)
          fun _ _ => Book.Neat.ret

theorem expandTargets_neat (room : String) (warnings : List String) :
    (accountBook w keycloakId).Neat (expandTargets room warnings) := by
  refine Book.Neat.look rfl (fun _ => rfl) fun x => ?_
  cases x with
  | error e => exact Book.Neat.ret
  | ok children => exact Book.Neat.ret

theorem kickFromAllMappedRooms_neat (bindings : List PolicyBinding) :
    (accountBook w keycloakId).Neat (kickFromAllMappedRooms w.context
      keycloakId matrixUserId adminSubject adminUsername bindings) := by
  refine (Book.Neat.foldlM ?_ _ _).bind fun _ => Book.Neat.ret
  intro acc binding
  rw [kickMappedBinding]
  split
  · exact Book.Neat.ret
  · refine (expandTargets_neat _ _).bind fun targets => ?_
    exact (Book.Neat.foldlM (kickMappedRoom_neat binding) _ _).bind
      fun _ => Book.Neat.ret

/-! ## The workflows -/

theorem disableUser_neat : (accountBook .disable keycloakId).Neat
    (disableUser keycloakId adminSubject adminUsername homeserverDomain) := by
  refine (Book.Neat.look rfl (fun _ => rfl) fun _ => Book.Neat.ret).andThen
    fun kcUser => ?_
  refine (revokeAuthSessions_neat (w := .disable) _).bind fun outcome => ?_
  exact (disableIdentityAccount_neat (w := .disable) _).andThen
    fun _ => Book.Neat.ret

theorem offboardUser_neat {synapse : Bool} {bindings : List PolicyBinding} :
    (accountBook (.offboard synapse bindings) keycloakId).Neat
      (offboardUser keycloakId adminSubject adminUsername homeserverDomain
        synapse bindings) := by
  refine (Book.Neat.look rfl (fun _ => rfl) fun _ => Book.Neat.ret).andThen
    fun kcUser => ?_
  refine (revokeAuthSessions_neat (w := .offboard synapse bindings) _).bind
    fun outcome => ?_
  refine (forceIdentityLogout_neat (w := .offboard synapse bindings)).bind
    fun logoutOutcome => ?_
  refine (disableIdentityAccount_neat (w := .offboard synapse bindings)
    _).andThen fun _ => ?_
  refine Book.Neat.bind ?_ fun outcome => ?_
  · rw [offboardRooms]
    split
    · exact (kickFromAllMappedRooms_neat (w := .offboard synapse bindings)
        bindings).bind fun _ => Book.Neat.ret
    · split
      · exact Book.Neat.ret
      · exact Book.Neat.ret
  · refine Book.Neat.bind (Book.Neat.look rfl (fun _ => rfl) fun x => ?_)
      fun found => ?_
    · cases x with
      | error e => exact Book.Neat.ret
      | ok u => exact Book.Neat.ret
    · obtain ⟨authUser, outcome⟩ := found
      cases authUser with
      | none => exact Book.Neat.ret
      | some authUser =>
          exact (deactivateAuthAccount_neat (w := .offboard synapse bindings)
            rfl _).andThen fun _ => Book.Neat.ret

theorem reactivateUser_neat : (accountBook .reactivate keycloakId).Neat
    (reactivateUser keycloakId adminSubject adminUsername homeserverDomain) := by
  refine (Book.Neat.look rfl (fun _ => rfl) fun _ => Book.Neat.ret).andThen
    fun kcUser => ?_
  refine (enableIdentityAccount_neat (w := .reactivate) _).andThen fun _ => ?_
  refine Book.Neat.bind (Book.Neat.look rfl (fun _ => rfl) fun x => ?_)
    fun _ => Book.Neat.ret
  cases x with
  | error e => exact Book.Neat.ret
  | ok found =>
      cases found with
      | none => exact Book.Neat.ret
      | some u =>
          show (accountBook .reactivate keycloakId).Neat
            (if MasUser.deactivatedAt u |>.isSome then _ else _)
          split
          · exact (reactivateAuthAccount_neat (w := .reactivate) _ _).bind
              fun _ => Book.Neat.ret
          · exact Book.Neat.ret

theorem deleteUser_neat : (accountBook .delete keycloakId).Neat
    (deleteUser keycloakId adminSubject adminUsername homeserverDomain) := by
  refine (Book.Neat.look rfl (fun _ => rfl) fun _ => Book.Neat.ret).andThen
    fun kcUser => ?_
  refine Book.Neat.bind (Book.Neat.look rfl (fun _ => rfl) fun x => ?_)
    fun found => ?_
  · cases x with
    | error e => exact Book.Neat.ret
    | ok u => exact Book.Neat.ret
  · obtain ⟨masUser, outcome⟩ := found
    refine Book.Neat.andThen ?_ fun _ => ?_
    · cases masUser with
      | none => exact Book.Neat.ret
      | some masUser =>
          refine Book.Neat.deed rfl (fun _ => rfl) (fun _ => rfl) fun x y => ?_
          cases y with
          | error e => exact Book.Neat.ret
          | ok u => exact Book.Neat.ret
    · refine Book.Neat.deed rfl (fun _ => rfl) (fun _ => rfl) fun x y => ?_
      cases y with
      | error e => exact Book.Neat.ret
      | ok u =>
          cases x with
          | ok u => exact Book.Neat.ret
          | error e =>
              show (accountBook .delete keycloakId).Neat
                (if Option.isSome masUser then _ else _)
              split
              · exact Book.Neat.ret
              · exact Book.Neat.ret

theorem AccountWorkflow.run_neat (w : AccountWorkflow) :
    (accountBook w keycloakId).Neat
      (w.run keycloakId adminSubject adminUsername homeserverDomain) := by
  cases w with
  | disable => exact disableUser_neat
  | offboard synapse bindings => exact offboardUser_neat
  | reactivate => exact reactivateUser_neat
  | delete => exact deleteUser_neat

end MatrixIdentityAdmin.Ref
