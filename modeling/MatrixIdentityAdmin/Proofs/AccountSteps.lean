import MatrixIdentityAdmin.Lib.Hoare
import MatrixIdentityAdmin.Spec.Account
import MatrixIdentityAdmin.Proofs.ReconcileSteps

/-!
# What the account workflows can call

The calls of each step, and from them those of a whole workflow once it has
its Keycloak record. What is asked of the calls is left open, and may depend on
the record: who they are about, whose name they are written under, whether they
are ready to be made. `Makes` lists the kinds of call there are, so a property
of all the workflows is checked against that list and nothing else.
-/

namespace MatrixIdentityAdmin.Ref

open MatrixIdentityAdmin.Lib

variable {context keycloakId matrixUserId adminSubject adminUsername
  homeserverDomain username : String} {P : Call → Prop}

/-! ## The steps -/

theorem revokeSession_only {outcome : WorkflowOutcome} {session : MasSession}
    (hfinish : P (.mas (.finishSession session.id session.sessionType)))
    (haudit : ∀ action result metadata, P (.audit (stepEntry keycloakId
      matrixUserId adminSubject adminUsername action result metadata))) :
    (revokeSession context keycloakId matrixUserId adminSubject adminUsername
      outcome session).Only P :=
  ⟨hfinish, fun _ => ⟨haudit _ _ _, fun _ => trivial⟩⟩

theorem revokeAuthSessions_only (hmas : ∀ n, P (.mas (.getUserByUsername n)))
    (hlist : ∀ id, P (.mas (.listSessions id)))
    (hfinish : ∀ id type, P (.mas (.finishSession id type)))
    (haudit : ∀ action result metadata, P (.audit (stepEntry keycloakId
      matrixUserId adminSubject adminUsername action result metadata))) :
    (revokeAuthSessions context keycloakId matrixUserId adminSubject
      adminUsername username).Only P := by
  refine ⟨hmas _, fun x => ?_⟩
  cases x with
  | error e => trivial
  | ok found =>
      cases found with
      | none => trivial
      | some a =>
          refine ⟨hlist _, fun y => ?_⟩
          cases y with
          | error e => trivial
          | ok l =>
              exact Prog.Only.foldlM
                (fun _ _ _ => revokeSession_only (hfinish _ _) haudit) _

theorem kickMappedRoom_eq {binding : PolicyBinding} {outcome : WorkflowOutcome}
    {r : String} :
    kickMappedRoom context keycloakId matrixUserId adminSubject adminUsername
      binding outcome r =
    kickRound matrixUserId "Offboarded" (fun x => stepEntry keycloakId matrixUserId
      adminSubject adminUsername s!"kick_room_on_{context}" (.of x)
      [("room_id", .str r), ("subject", .str (toString binding.subject))])
      outcome r := rfl

theorem kickMappedRoom_only {binding : PolicyBinding}
    {outcome : WorkflowOutcome} {r : String}
    (hread : P (.synapse (.getJoinedRoomMembers r)))
    (hkick : P (.synapse (.kickUserFromRoom matrixUserId r "Offboarded")))
    (haudit : ∀ action result metadata, P (.audit (stepEntry keycloakId
      matrixUserId adminSubject adminUsername action result metadata))) :
    (kickMappedRoom context keycloakId matrixUserId adminSubject adminUsername
      binding outcome r).Only P := by
  rw [kickMappedRoom_eq]
  exact kickRound_only hread hkick fun _ => haudit _ _ _

/-- A round of the binding loop: nothing for a room that was there before, or
else its lookup and the loop over what it expands to. -/
theorem wp_kickMappedBinding {σ : Type} {E : Env Call Answer σ} {s : σ}
    {seen : List String} {outcome : WorkflowOutcome} {b : PolicyBinding}
    {Q : List String × WorkflowOutcome → σ → Prop}
    (hseen : b.target.roomId ∈ seen → Q (seen, outcome) s)
    (hlook : b.target.roomId ∉ seen →
      E.pre s (.synapse (.getSpaceChildren b.target.roomId)) ∧
      ∀ (x : Result (List String)) s₁,
        E.step s (.synapse (.getSpaceChildren b.target.roomId)) x s₁ →
        ((expansion b.target.roomId x).reverse.foldlM (kickMappedRoom context
          keycloakId matrixUserId adminSubject adminUsername b)
          ⟨expandWarnings b.target.roomId outcome.warnings x⟩).wp E s₁
          fun o s' => Q (b.target.roomId :: seen, o) s') :
    (kickMappedBinding context keycloakId matrixUserId adminSubject adminUsername
      (seen, outcome) b).wp E s Q := by
  rw [kickMappedBinding]
  split
  · next h => exact hseen (by simpa using h)
  · next h =>
      rw [Prog.wp_bind, wp_expandTargets]
      obtain ⟨hpre, hrest⟩ := hlook (by simpa using h)
      refine ⟨hpre, fun x s₁ hx => ?_⟩
      rw [Prog.wp_bind]
      exact hrest x s₁ hx

theorem kickFromAllMappedRooms_only {bindings : List PolicyBinding}
    (hchildren : ∀ r, P (.synapse (.getSpaceChildren r)))
    (hread : ∀ r, P (.synapse (.getJoinedRoomMembers r)))
    (hkick : bindings ≠ [] → ∀ r,
      P (.synapse (.kickUserFromRoom matrixUserId r "Offboarded")))
    (haudit : ∀ action result metadata, P (.audit (stepEntry keycloakId
      matrixUserId adminSubject adminUsername action result metadata))) :
    (kickFromAllMappedRooms context keycloakId matrixUserId adminSubject
      adminUsername bindings).Only P := by
  refine Prog.Only.bind (Prog.Only.foldlM ?_ _) fun _ => trivial
  intro b hb h
  obtain ⟨seenRooms, outcome⟩ := h
  show Prog.Only P (if List.contains seenRooms b.target.roomId then _ else _)
  split
  · trivial
  · refine Prog.Only.bind (p := expandTargets b.target.roomId outcome.warnings)
      ⟨hchildren _, fun x => ?_⟩ fun targets => ?_
    · cases x with
      | error e => trivial
      | ok rs => trivial
    · exact Prog.Only.bind (Prog.Only.foldlM (fun _ _ _ => kickMappedRoom_only
        (hread _) (hkick (List.ne_nil_of_mem hb) _) haudit) _) fun _ => trivial

theorem fatalStep_only {call : Async (Result Unit)} {action : String}
    {metadata : List (String × MetaValue)} (hcall : call.Only P)
    (haudit : ∀ action result metadata, P (.audit (stepEntry keycloakId
      matrixUserId adminSubject adminUsername action result metadata))) :
    (fatalStep keycloakId matrixUserId adminSubject adminUsername call action
      metadata).Only P :=
  hcall.bind fun _ =>
    Prog.Only.andThen ⟨haudit _ _ _, fun _ => trivial⟩ fun _ => trivial

/-! ## The workflows -/

namespace AccountWorkflow

/-- Can the workflow get to a kick? -/
def Kicks : AccountWorkflow → Prop
  | .offboard synapse bindings => synapse = true ∧ bindings ≠ []
  | _ => False

/-- The kinds of call a workflow makes for a record with this Matrix id. -/
structure Makes (wf : AccountWorkflow) (P : Call → Prop) (keycloakId
    matrixUserId adminSubject adminUsername : String) : Prop where
  mas : ∀ c, P (.mas c)
  logout : P (.keycloak (.logoutUser keycloakId))
  disable : P (.keycloak (.disableUser keycloakId))
  enable : P (.keycloak (.enableUser keycloakId))
  delete : P (.keycloak (.deleteUser keycloakId))
  children : ∀ r, P (.synapse (.getSpaceChildren r))
  read : ∀ r, P (.synapse (.getJoinedRoomMembers r))
  kick : wf.Kicks → ∀ r,
    P (.synapse (.kickUserFromRoom matrixUserId r "Offboarded"))
  audit : ∀ action result metadata, P (.audit (stepEntry keycloakId
    matrixUserId adminSubject adminUsername action result metadata))

section

variable {wf : AccountWorkflow}

theorem Makes.revokeAuthSessions
    (h : wf.Makes P keycloakId matrixUserId adminSubject adminUsername) :
    (revokeAuthSessions context keycloakId matrixUserId adminSubject
      adminUsername username).Only P :=
  revokeAuthSessions_only (fun _ => h.mas _) (fun _ => h.mas _)
    (fun _ _ => h.mas _) h.audit

end

/-- After the record is there, a workflow makes the calls of its kinds. -/
abbrev Follows (wf : AccountWorkflow) (P : KeycloakUser → Call → Prop)
    (keycloakId : String) (p : Async (Result wf.Out)) : Prop :=
  ∃ f, p = (Keycloak.getUser keycloakId).andThen f ∧ ∀ u, (f u).Only (P u)

variable {P : KeycloakUser → Call → Prop}

theorem disableUser_only (h : ∀ u, disable.Makes (P u) keycloakId
      (matrixId u.username homeserverDomain) adminSubject adminUsername) :
    disable.Follows P keycloakId (disableUser keycloakId adminSubject
      adminUsername homeserverDomain) := by
  refine ⟨_, rfl, fun u => (h u).revokeAuthSessions.bind fun o => ?_⟩
  exact Prog.Only.andThen (fatalStep_only ⟨(h u).disable, fun _ => trivial⟩
    (h u).audit) fun _ => trivial

theorem offboardUser_only {synapse : Bool} {bindings : List PolicyBinding}
    (h : ∀ u, (offboard synapse bindings).Makes (P u) keycloakId
      (matrixId u.username homeserverDomain) adminSubject adminUsername) :
    (offboard synapse bindings).Follows P keycloakId (offboardUser keycloakId
      adminSubject adminUsername homeserverDomain synapse bindings) := by
  refine ⟨_, rfl, fun u => (h u).revokeAuthSessions.bind fun o => ?_⟩
  -- The forced logout: one call and its entry.
  refine Prog.Only.bind ⟨(h u).logout, fun _ => ⟨(h u).audit _ _ _, fun _ => trivial⟩⟩
    fun o₁ => ?_
  refine Prog.Only.andThen (fatalStep_only ⟨(h u).disable, fun _ => trivial⟩
    (h u).audit) fun _ => ?_
  refine Prog.Only.bind ?_ fun o₂ => ⟨(h u).mas _, fun x => ?_⟩
  · rw [offboardRooms]
    refine Prog.Only.ite (fun hs => ?_) fun _ => ?_
    · exact (kickFromAllMappedRooms_only (h u).children (h u).read
        (fun hb => (h u).kick ⟨hs, hb⟩) (h u).audit).bind fun _ => trivial
    · exact Prog.Only.ite (fun _ => trivial) fun _ => trivial
  · cases x with
    | error e => trivial
    | ok found =>
        cases found with
        | none => trivial
        | some a =>
            exact Prog.Only.andThen (fatalStep_only ⟨(h u).mas _, fun _ => trivial⟩
              (h u).audit) fun _ => trivial

theorem reactivateUser_only (h : ∀ u, reactivate.Makes (P u) keycloakId
      (matrixId u.username homeserverDomain) adminSubject adminUsername) :
    reactivate.Follows P keycloakId (reactivateUser keycloakId adminSubject
      adminUsername homeserverDomain) := by
  refine ⟨_, rfl, fun u => ?_⟩
  refine Prog.Only.andThen (fatalStep_only ⟨(h u).enable, fun _ => trivial⟩
    (h u).audit) fun _ => Prog.Only.bind ⟨(h u).mas _, fun x => ?_⟩ fun _ => trivial
  cases x with
  | error e => trivial
  | ok found =>
      cases found with
      | none => trivial
      | some a =>
          show Prog.Only _ (if (MasUser.deactivatedAt a).isSome then _ else _)
          split
          · exact ⟨(h u).mas _, fun _ => ⟨(h u).audit _ _ _, fun _ => trivial⟩⟩
          · trivial

theorem deleteUser_only (h : ∀ u, delete.Makes (P u) keycloakId
      (matrixId u.username homeserverDomain) adminSubject adminUsername) :
    delete.Follows P keycloakId (deleteUser keycloakId adminSubject
      adminUsername homeserverDomain) := by
  refine ⟨_, rfl, fun u => ?_⟩
  refine Prog.Only.bind (p := deleteLookup u.username) ⟨(h u).mas _, fun x => ?_⟩
    fun found => Prog.Only.andThen ?_ fun _ => ⟨(h u).delete, fun x =>
      Prog.Only.andThen ⟨(h u).audit _ _ _, fun _ => trivial⟩ fun _ => ?_⟩
  · cases x with
    | error e => trivial
    | ok a => trivial
  · cases found.1 with
    | none => trivial
    | some a => exact fatalStep_only ⟨(h u).mas _, fun _ => trivial⟩ (h u).audit
  · cases x with
    | ok v => trivial
    | error e =>
        show Prog.Only _ (if found.1.isSome then _ else _)
        exact Prog.Only.ite (fun _ => trivial) fun _ => trivial

theorem run_only (wf : AccountWorkflow) (keycloakId adminSubject adminUsername
      homeserverDomain : String) {P : KeycloakUser → Call → Prop}
    (h : ∀ u, wf.Makes (P u) keycloakId (matrixId u.username homeserverDomain)
      adminSubject adminUsername) :
    wf.Follows P keycloakId
      (wf.run keycloakId adminSubject adminUsername homeserverDomain) := by
  cases wf with
  | disable => exact disableUser_only h
  | offboard synapse bindings => exact offboardUser_only h
  | reactivate => exact reactivateUser_only h
  | delete => exact deleteUser_only h

end AccountWorkflow

end MatrixIdentityAdmin.Ref
