import MatrixIdentityAdmin.Proofs.AccountSteps
import MatrixIdentityAdmin.Proofs.BulkSteps
import MatrixIdentityAdmin.Proofs.InviteSteps
import MatrixIdentityAdmin.Proofs.ReconcileSteps
import MatrixIdentityAdmin.Spec.Authority

/-!
# Whose name is under an audit row

Every workflow is handed an actor and passes it down to the steps that write.
Nothing on the way looks at it or changes it, so this is read off each step
once and put together as the workflows are.
-/

namespace MatrixIdentityAdmin.Ref

open MatrixIdentityAdmin.Lib

open App

/-- If the call writes a row, the row is in the name of this actor. -/
def Signs (subject username : String) (c : AppCall) : Prop :=
  ∀ entry, auditRow c = some entry →
    entry.adminSubject = subject ∧ entry.adminUsername = username

abbrev Signed (subject username : String) (c : Call) : Prop :=
  Signs subject username (.service c)

section

variable {context keycloakId matrixUserId adminSubject adminUsername
  homeserverDomain username : String}

theorem signs_row {c : AppCall} {entry : AuditEntry}
    (hc : auditRow c = some entry) (hs : entry.adminSubject = adminSubject)
    (hu : entry.adminUsername = adminUsername) :
    Signs adminSubject adminUsername c := by
  intro e he
  rw [hc] at he
  cases he
  exact ⟨hs, hu⟩

theorem signs_none {c : AppCall} (hc : auditRow c = none) :
    Signs adminSubject adminUsername c := by
  intro e he
  rw [hc] at he
  cases he

theorem signed_audit {entry : AuditEntry} :
    Signed entry.adminSubject entry.adminUsername (.audit entry) := signs_row rfl rfl rfl

theorem ask_signed {c : Call} (hc : auditRow (.service c) = none) :
    (ask c).Only (Signed adminSubject adminUsername) :=
  ⟨signs_none hc, fun _ => trivial⟩

/-! ## The account workflows -/

theorem AccountWorkflow.run_signed (wf : AccountWorkflow) :
    (wf.run keycloakId adminSubject adminUsername homeserverDomain).Only
      (Signed adminSubject adminUsername) := by
  obtain ⟨f, hf, hf'⟩ := wf.run_only keycloakId adminSubject adminUsername
    homeserverDomain
    (P := fun _ => Signed adminSubject adminUsername) fun u => {
      mas := fun _ => signs_none rfl
      logout := signs_none rfl
      disable := signs_none rfl
      enable := signs_none rfl
      delete := signs_none rfl
      children := fun _ => signs_none rfl
      read := fun _ => signs_none rfl
      kick := fun _ _ => signs_none rfl
      audit := fun _ _ _ => signed_audit }
  rw [hf]
  exact Prog.Only.andThen (ask_signed rfl) hf'

end

/-! ## Reconciling -/

section

variable {state : AppState} {admin : Admin} {keycloakId csrf : String}

theorem reconcileMembership_signed {keycloakId matrixUserId actorSubject
    actorUsername : String} {groups roles : List String}
    {bindings : List PolicyBinding} :
    (reconcileMembership keycloakId matrixUserId groups roles actorSubject
      actorUsername bindings).Only (Signed actorSubject actorUsername) :=
  reconcileMembership_only (fun _ => signs_none rfl) fun _ _ _ _ => signed_audit

/-- What both requests about one record start with. -/
theorem readFacts_signed {β : Type}
    {f : KeycloakUser → List KeycloakGroup → List KeycloakRole →
      List PolicyBinding → Async (Result β)}
    (hf : ∀ u groups roles bindings,
      (f u groups roles bindings).Only (Signed admin.subject admin.username)) :
    ((Keycloak.getUser keycloakId).andThen fun kcUser =>
      (Keycloak.getUserGroups keycloakId).andThen fun kcGroups =>
      (Keycloak.getUserRoles keycloakId).andThen fun kcRoles =>
      listBindings.andThen fun bindings =>
        f kcUser kcGroups kcRoles bindings).Only
      (Signed admin.subject admin.username) := by
  refine Prog.Only.andThen (ask_signed rfl) fun u => ?_
  refine Prog.Only.andThen (ask_signed rfl) fun groups => ?_
  refine Prog.Only.andThen (ask_signed rfl) fun roles => ?_
  refine Prog.Only.andThen (ask_signed rfl) fun bindings => ?_
  exact hf u groups roles bindings

theorem bulkReconcilePages_signed {bindings : List PolicyBinding} {fuel : Nat}
    {first : UInt32} {acc : BulkReconcileResult} :
    (bulkReconcilePages state admin bindings fuel first acc).Only
      (Signed admin.subject admin.username) :=
  bulkReconcilePages_only (fun _ => signs_none rfl) fun _ _ =>
    bulkReconcileUser_only (signs_none rfl) (signs_none rfl) fun _ _ =>
      reconcileMembership_signed

theorem previewMembership_signed {matrixUserId subject username : String}
    {bindings : List PolicyBinding} {groups roles : List String} :
    (previewMembership matrixUserId bindings groups roles).Only
      (Signed subject username) :=
  previewMembership_only (fun _ => signs_none rfl) fun _ => signs_none rfl

end

/-! ## Invitations -/

namespace InviteUser

variable {actorSubject actorUsername homeserverDomain : String}
  {tables : CaseTables} {rawEmail : String}
  {allowedDomains : Option (List String)} {requestedBy : Option String}
  {template : Option OnboardingTemplate} {v : ValidatedInviteEmail}

abbrev Signed (subject username : String) (c : InviteCall) : Prop :=
  Signs subject username (.onboarding c)

theorem signed_ofTemplate {c : InviteCall} (hc : OfTemplate c) :
    Signed actorSubject actorUsername c := by
  cases c with
  | keycloak c => exact signs_none rfl
  | mas c => exact signs_none rfl
  | audit entry => exact False.elim hc

theorem inviteValidated_signed :
    (inviteValidated actorSubject actorUsername homeserverDomain v requestedBy
      template).Only (Signed actorSubject actorUsername) := by
  refine ⟨signs_none rfl, fun existing => ?_⟩
  cases existing with
  | error e => trivial
  | ok existing =>
  cases existing with
  | some user => trivial
  | none =>
  refine ⟨signs_none rfl, fun found => ⟨signs_none rfl, fun created => ?_⟩⟩
  cases created with
  | error e => trivial
  | ok userId =>
      exact afterCreation_only (fun _ => signed_ofTemplate)
        (fun _ => signs_none rfl) (signs_none rfl) fun _ _ _ => signs_row rfl rfl rfl

theorem inviteUser_signed :
    (inviteUser actorSubject actorUsername homeserverDomain tables rawEmail
      allowedDomains requestedBy template).Only
      (Signed actorSubject actorUsername) := by
  unfold inviteUser
  split
  · trivial
  · split
    · trivial
    · split
      · trivial
      · exact inviteValidated_signed

end InviteUser

/-! ## The policy and the templates -/

namespace PolicyService

variable {actorSubject actorUsername id : String} {subject : PolicySubject}
  {target : PolicyTarget} {powerLevel : Option Int} {allowRemove : Bool}

abbrev Signed (subject username : String) (c : StoreCall) : Prop :=
  Signs subject username (.store c)

theorem createBinding_signed :
    (createBinding actorSubject actorUsername subject target powerLevel
      allowRemove).Only (Signed actorSubject actorUsername) := by
  refine ⟨signs_none rfl, fun id => ⟨signs_none rfl, fun now => ?_⟩⟩
  refine Prog.Only.andThen ⟨signs_none rfl, fun _ => trivial⟩ fun _ => ?_
  exact Prog.Only.andThen ⟨signs_row rfl rfl rfl, fun _ => trivial⟩ fun _ => trivial

/-- A change that hit no row writes none either. -/
theorem changed_signed {p : Store (Result Bool)} (entry : AuditEntry)
    (hp : p.Only (Signed entry.adminSubject entry.adminUsername)) :
    (p.andThen fun changed =>
      if changed then
        (Store.sql (.insertAudit entry)).andThen fun _ => return .ok changed
      else return .ok changed).Only
      (Signed entry.adminSubject entry.adminUsername) := by
  refine Prog.Only.andThen hp fun changed => ?_
  split
  · exact Prog.Only.andThen ⟨signs_row rfl rfl rfl, fun _ => trivial⟩ fun _ => trivial
  · trivial

theorem updateBinding_signed :
    (updateBinding actorSubject actorUsername id powerLevel allowRemove).Only
      (Signed actorSubject actorUsername) := by
  refine ⟨signs_none rfl, fun now => changed_signed
    (updateEntry actorSubject actorUsername id powerLevel allowRemove) ?_⟩
  exact Prog.Only.andThen ⟨signs_none rfl, fun _ => trivial⟩ fun _ => trivial

theorem deleteBinding_signed :
    (deleteBinding actorSubject actorUsername id).Only
      (Signed actorSubject actorUsername) := by
  refine changed_signed (deleteEntry actorSubject actorUsername id) ?_
  exact Prog.Only.andThen ⟨signs_none rfl, fun _ => trivial⟩ fun _ => trivial

end PolicyService

namespace Templates

variable {serde : SerdeJson} {admin : Admin} {subject username : String}

abbrev Signed (subject username : String) (c : TemplateCall) : Prop :=
  Signs subject username (.templates c)

theorem mapErr_signed {α ε ε' : Type} {f : ε → ε'} {p : Task (Except ε α)}
    (hp : p.Only (Signed subject username)) :
    (mapErr f p).Only (Signed subject username) :=
  hp.bind fun _ => trivial

theorem loadTemplates_signed :
    (loadTemplates serde).Only (Signed subject username) := by
  refine Prog.Only.andThen (mapErr_signed ⟨signs_none rfl, fun _ => trivial⟩)
    fun contents => ?_
  cases contents with
  | none => trivial
  | some contents => trivial

theorem saveAndRedirect_signed {list : List OnboardingTemplate}
    {entry : AuditEntry} {location : String}
    (hs : entry.adminSubject = subject) (hu : entry.adminUsername = username) :
    (saveAndRedirect serde list entry location).Only
      (Signed subject username) := by
  refine Prog.Only.andThen (mapErr_signed ?_) fun _ =>
    Prog.Only.andThen ⟨signs_row rfl hs hu, fun _ => trivial⟩ fun _ => trivial
  rw [saveTemplates]
  split
  · trivial
  · exact mapErr_signed (Prog.Only.andThen ⟨signs_none rfl, fun _ => trivial⟩
      fun _ => ⟨signs_none rfl, fun _ => trivial⟩)

end Templates

end MatrixIdentityAdmin.Ref
