import MatrixIdentityAdmin.Proofs.Signed

/-!
# Behind the check of the token

Every handler but those that sign somebody in and the bot's is behind two
checks. The extractor hands it an admin; the handler itself compares the token
of the form with the admin's before it calls anybody. What it calls after that
is vouched for by the admin it was handed, whoever that is.
-/

namespace MatrixIdentityAdmin.Ref.App

open MatrixIdentityAdmin.Lib InviteHandlers PolicyHandlers

-- What the texts of a form look like decides nothing here.
attribute [local irreducible] InviteUser.inviteUser Templates.CreateForm.template

/-- No cookie is handed out. -/
def Quiet (c : AppCall) : Prop := ∀ name text, c ≠ .session (.addCookie name text)

def addsCookie : AppCall → Bool
  | .session (.addCookie ..) => true
  | _ => false

theorem quiet {c : AppCall} (hc : addsCookie c = false) : Quiet c := by
  intro name text h
  rw [h] at hc
  cases hc

/-- A call in the name of an actor. -/
structure Attributed (subject username : String) (c : AppCall) : Prop where
  signed : Signs subject username c
  quiet : Quiet c

/-- A call in the name of an admin, whose token was compared. -/
structure Vouched (admin : Admin) (csrf : String) (c : AppCall) : Prop extends
    Attributed admin.subject admin.username c where
  token : admin.csrfToken = csrf

section

variable {config : Config} {admin : Admin} {keycloakId csrf : String} {α : Type}

/-- What is behind the comparison is reached only with the token. -/
theorem checked_only {C : Type} {A : C → Type} {P : C → Prop}
    {p : Prog C A (Result α)} (hp : admin.csrfToken = csrf → p.Only P) :
    (admin.checked csrf p).Only P := by
  rw [Admin.checked, validate]
  by_cases h : admin.csrfToken = csrf
  · rw [if_pos h]
    exact hp h
  · rw [if_neg h]
    trivial

theorem rendered_only {P : AppCall → Prop} {render : α → Response}
    {p : Handler α} (hp : p.Only P) : (rendered render p).Only P :=
  hp.bind fun _ => trivial

/-- A workflow behind the comparison. -/
theorem checked_vouched {C : Type} {f : C → AppCall} (hf : ∀ c, Quiet (f c))
    {p : Prog C (fun c => (f c).Answer) (Result α)}
    (hp : p.Only fun c => Signs admin.subject admin.username (f c)) :
    ((admin.checked csrf p).lift f).Only (Vouched admin csrf) :=
  Prog.Only.lift (checked_only fun h => hp.mono fun c hs => ⟨⟨hs, hf c⟩, h⟩)

theorem service_vouched {p : Ref.Async (Result α)}
    (hp : p.Only (Signed admin.subject admin.username)) :
    (service (admin.checked csrf p)).Only (Vouched admin csrf) :=
  checked_vouched (f := .service) (fun _ => quiet rfl) hp

theorem store_vouched {p : Store (Result α)}
    (hp : p.Only (PolicyService.Signed admin.subject admin.username)) :
    (store (admin.checked csrf p)).Only (Vouched admin csrf) :=
  checked_vouched (f := .store) (fun _ => quiet rfl) hp

theorem templates_vouched {p : Templates.Task (Result α)}
    (hp : p.Only (Templates.Signed admin.subject admin.username)) :
    (templates (admin.checked csrf p)).Only (Vouched admin csrf) :=
  checked_vouched (f := .templates) (fun _ => quiet rfl) hp

/-! ## The handlers -/

theorem auditedCall_vouched {call : Async (Result Unit)} {action : String}
    {metadata : List (String × MetaValue)}
    (hcall : call.Only (Signed admin.subject admin.username)) :
    (service (auditedCall admin keycloakId csrf call action metadata)).Only
      (Vouched admin csrf) := by
  refine service_vouched (hcall.bind fun result => ?_)
  exact Prog.Only.andThen ⟨signed_audit, fun _ => trivial⟩ fun _ => trivial

theorem offboard_vouched :
    (service (offboard config.toAppState admin keycloakId csrf)).Only
      (Vouched admin csrf) := by
  refine service_vouched (Prog.Only.andThen (ask_signed rfl) fun bindings => ?_)
  exact Prog.Only.andThen (AccountWorkflow.run_signed (.offboard ..)) fun _ => trivial

theorem reconcile_vouched :
    (service (reconcile config.toAppState admin keycloakId csrf)).Only
      (Vouched admin csrf) := by
  have hchecked : reconcileUser config.toAppState admin keycloakId csrf =
      admin.checked csrf _ := rfl
  rw [service, reconcile, hchecked]
  refine Prog.Only.lift (Prog.Only.andThen (checked_only fun h => ?_)
    fun _ => trivial)
  refine Prog.Only.mono (fun c hs => ⟨⟨hs, quiet rfl⟩, h⟩) ?_
  split
  · trivial
  · exact readFacts_signed fun _ _ _ _ => reconcileMembership_signed

theorem reconcilePreview_vouched :
    (service (reconcilePreview config.toAppState admin keycloakId csrf)).Only
      (Vouched admin csrf) := by
  refine service_vouched ?_
  split
  · trivial
  · exact readFacts_signed fun _ _ _ _ => previewMembership_signed

theorem bulkReconcile_vouched {fuel : Nat} :
    (service (bulkReconcile config.toAppState admin fuel csrf)).Only
      (Vouched admin csrf) := by
  refine Prog.Only.lift ?_
  by_cases h : admin.csrfToken = csrf
  · refine Prog.Only.mono (fun c hs => ⟨⟨hs, quiet rfl⟩, h⟩)
      (show Prog.Only (Signed admin.subject admin.username) _ from ?_)
    exact bulkReconcile_only h (signs_none rfl) (signs_none rfl) fun _ =>
      bulkReconcilePages_signed
  · rw [bulkReconcile, validate, if_neg h]
    trivial

theorem create_vouched {form : CreateBindingForm} :
    (store (PolicyHandlers.create admin form)).Only
      (Vouched admin form.csrf) := by
  refine store_vouched ?_
  split
  · trivial
  · split
    · trivial
    · split
      · trivial
      · exact Prog.Only.andThen PolicyService.createBinding_signed
          fun _ => trivial

theorem update_vouched {id : String} {form : UpdateBindingForm} :
    (store (PolicyHandlers.update admin id form)).Only
      (Vouched admin form.csrf) := by
  refine store_vouched ?_
  split
  · trivial
  · exact Prog.Only.andThen PolicyService.updateBinding_signed fun _ => trivial

theorem delete_vouched {id : String} :
    (store (PolicyHandlers.delete admin id csrf)).Only (Vouched admin csrf) :=
  store_vouched (Prog.Only.andThen PolicyService.deleteBinding_signed
    fun _ => trivial)

theorem createTemplate_vouched {form : Templates.CreateForm} :
    (templates (Templates.create config.serde admin form)).Only
      (Vouched admin form.csrf) := by
  refine templates_vouched (Prog.Only.ite (fun _ => trivial) fun _ => ?_)
  refine Prog.Only.andThen
    (Templates.mapErr_signed Templates.loadTemplates_signed) fun list => ?_
  exact Prog.Only.ite (fun _ => trivial)
    fun _ => Templates.saveAndRedirect_signed rfl rfl

theorem deleteTemplate_vouched {form : Templates.DeleteForm} :
    (templates (Templates.delete config.serde admin form)).Only
      (Vouched admin form.csrf) :=
  templates_vouched (Prog.Only.andThen
    (Templates.mapErr_signed Templates.loadTemplates_signed)
    fun _ => Templates.saveAndRedirect_signed rfl rfl)

/-- The cache of rooms is no audit row and no cookie. -/
theorem cachePages_vouched (h : admin.csrfToken = csrf) {now : String}
    {fuel : Nat} : ∀ {start : Option String} {count : Nat},
      (cachePages now fuel start count).Only (Vouched admin csrf) := by
  induction fuel with
  | zero => intro start count; trivial
  | succ fuel ih =>
      intro start count
      refine Prog.Only.bind (p := listRooms 100 start)
        ⟨⟨⟨signs_none rfl, quiet rfl⟩, h⟩, fun _ => trivial⟩ fun page => ?_
      cases page with
      | error e => trivial
      | ok page =>
          refine Prog.Only.bind (Prog.Only.foldlM (fun entry _ acc => ?_) _)
            fun counted => ?_
          · cases acc with
            | error e => trivial
            | ok n =>
                refine ⟨⟨⟨signs_none rfl, quiet rfl⟩, h⟩, fun children => ?_⟩
                exact Prog.Only.andThen ⟨⟨⟨signs_none rfl, quiet rfl⟩, h⟩,
                  fun _ => trivial⟩ fun _ => trivial
          · cases counted with
            | error e => trivial
            | ok n =>
                dsimp only
                cases page.nextBatch with
                | none => trivial
                | some token => exact ih

theorem refreshRooms_vouched {fuel : Nat} :
    (refreshRooms config.toAppState admin fuel csrf).Only
      (Vouched admin csrf) := by
  rw [refreshRooms, validate]
  by_cases h : admin.csrfToken = csrf
  · rw [if_pos h]
    dsimp only
    split
    · trivial
    · refine Prog.Only.bind (p := refreshRoomCache fuel)
        ⟨⟨⟨signs_none rfl, quiet rfl⟩, h⟩, fun now => cachePages_vouched h⟩
        fun count => ?_
      cases count with
      | none => trivial
      | some count =>
          cases count with
          | error e => trivial
          | ok count => trivial
  · rw [if_neg h]
    trivial

/-! ## Invitations -/

theorem onboarding_only {P : AppCall → Prop} {p : InviteUser.Async α}
    (hp : p.Only fun c => P (.onboarding c)) : (onboarding p).Only P :=
  Prog.Only.lift hp

theorem templates_only {P : AppCall → Prop} {p : Templates.Task α}
    (hp : p.Only fun c => P (.templates c)) : (templates p).Only P :=
  Prog.Only.lift hp

variable {subject username : String} {template : Option OnboardingTemplate}

theorem lookUp_attributed {name : Option String} :
    (lookUp config name).Only (Attributed subject username) := by
  rw [lookUp]
  split
  · trivial
  · refine Prog.Only.bind (templates_only (Templates.loadTemplates_signed.mono
      fun c hs => ⟨hs, quiet rfl⟩)) fun list => ?_
    cases list with
    | error e => trivial
    | ok list =>
        dsimp only
        split
        · trivial
        · trivial

theorem inviteUser_attributed {tables : CaseTables} {email domain : String}
    {allowed : Option (List String)} {requestedBy : Option String} :
    (onboarding (InviteUser.inviteUser subject username domain tables email
      allowed requestedBy template)).Only (Attributed subject username) :=
  onboarding_only (InviteUser.inviteUser_signed.mono
    fun _ hs => ⟨hs, quiet rfl⟩)

theorem inviteAs_attributed {email : String} :
    (inviteAs config admin email template).Only
      (Attributed admin.subject admin.username) := by
  rw [inviteAs]
  refine Prog.Only.bind inviteUser_attributed fun r => ?_
  cases r with
  | ok msg => trivial
  | error e => trivial

theorem adminInvite_vouched {form : AdminInviteForm} :
    (adminInvite config admin form).Only (Vouched admin form.csrf) := by
  rw [adminInvite, validate]
  by_cases h : admin.csrfToken = form.csrf
  · rw [if_pos h]
    refine Prog.Only.mono (fun c hc => ⟨hc, h⟩)
      (Prog.Only.bind lookUp_attributed fun found => ?_)
    cases found with
    | notAsked => exact inviteAs_attributed
    | unreadable e => trivial
    | unknown name => trivial
    | found template => exact inviteAs_attributed
  · rw [if_neg h]
    trivial

/-- What is sent is never empty, so a header that matches was given. -/
theorem header_given {authorization : Option String}
    (h : authorization.getD "" = expectedHeader config) :
    authorization = some (expectedHeader config) := by
  cases authorization with
  | some header => rw [← h, Option.getD_some]
  | none =>
      have hlen := congrArg String.length h
      have hbearer : (toString "Bearer ").length = 7 := rfl
      simp [expectedHeader] at hlen
      omega

theorem inviteAsBot_attributed {body : InviteRequest} :
    (inviteAsBot config body template).Only (Attributed botActor botActor) :=
  inviteUser_attributed

/-- The bot's way in: nothing is called without the header. -/
theorem handleInvite_attributed {authorization : Option String}
    {body : InviteRequest} :
    (handleInvite config authorization body).Only fun c =>
      authorization = some (expectedHeader config) ∧
        Attributed botActor botActor c := by
  rw [handleInvite]
  by_cases h : authorization.getD "" = expectedHeader config
  · rw [if_neg (not_not.2 h)]
    refine Prog.Only.mono (fun c hc => ⟨header_given h, hc⟩)
      (Prog.Only.bind lookUp_attributed fun found => ?_)
    cases found with
    | notAsked => exact inviteAsBot_attributed
    | unreadable e => trivial
    | unknown name => trivial
    | found template => exact inviteAsBot_attributed
  · rw [if_pos h]
    trivial

theorem createInvite_attributed {authorization : Option String}
    {body : InviteRequest} :
    (createInvite config authorization body).Only fun c =>
      authorization = some (expectedHeader config) ∧
        Attributed botActor botActor c := by
  rw [createInvite]
  refine Prog.Only.bind handleInvite_attributed fun r => ?_
  cases r with
  | ok msg => trivial
  | error e => trivial

/-! ## All of them -/

/-- A request with a token in its form goes through the extractor, and its
handler vouches for what it calls. -/
theorem serve_vouched {fuel : Nat} {r : Request} {csrf : String}
    (hr : r.csrf = some csrf) : ∃ handler,
      serve config fuel r = authenticated config handler ∧
        ∀ admin, (handler admin).Only (Vouched admin csrf) := by
  cases r with
  | login => cases hr
  | callback code state => cases hr
  | createInvite authorization body => cases hr
  | logout token =>
      cases hr
      refine ⟨_, by rw [serve], fun admin => ?_⟩
      exact rendered_only (checked_only fun h =>
        ⟨⟨⟨signs_none rfl, quiet rfl⟩, h⟩, fun _ => trivial⟩)
  | revoke keycloakId sessionId token sessionType =>
      cases hr
      refine ⟨_, by rw [serve], fun admin => ?_⟩
      exact rendered_only (auditedCall_vouched (ask_signed rfl))
  | forceKeycloakLogout keycloakId token =>
      cases hr
      refine ⟨_, by rw [serve], fun admin => ?_⟩
      exact rendered_only (auditedCall_vouched (ask_signed rfl))
  | deleteUser keycloakId token =>
      cases hr
      refine ⟨_, by rw [serve], fun admin => ?_⟩
      exact rendered_only (service_vouched
        (Prog.Only.andThen (AccountWorkflow.run_signed .delete) fun _ => trivial))
  | disable keycloakId token =>
      cases hr
      refine ⟨_, by rw [serve], fun admin => ?_⟩
      exact rendered_only (service_vouched
        (Prog.Only.andThen (AccountWorkflow.run_signed .disable) fun _ => trivial))
  | reactivate keycloakId token =>
      cases hr
      refine ⟨_, by rw [serve], fun admin => ?_⟩
      exact rendered_only (service_vouched
        (Prog.Only.andThen (AccountWorkflow.run_signed .reactivate) fun _ => trivial))
  | offboard keycloakId token =>
      cases hr
      refine ⟨_, by rw [serve], fun admin => ?_⟩
      exact rendered_only offboard_vouched
  | reconcile keycloakId token =>
      cases hr
      refine ⟨_, by rw [serve], fun admin => ?_⟩
      exact rendered_only reconcile_vouched
  | reconcilePreview keycloakId token =>
      cases hr
      refine ⟨_, by rw [serve], fun admin => ?_⟩
      exact rendered_only reconcilePreview_vouched
  | bulkReconcile token =>
      cases hr
      refine ⟨_, by rw [serve], fun admin => ?_⟩
      exact bulkReconcile_vouched.bind fun _ => trivial
  | adminInvite form =>
      cases hr
      refine ⟨_, by rw [serve], fun admin => ?_⟩
      exact rendered_only adminInvite_vouched
  | createBinding form =>
      cases hr
      refine ⟨_, by rw [serve], fun admin => ?_⟩
      exact rendered_only create_vouched
  | updateBinding id form =>
      cases hr
      refine ⟨_, by rw [serve], fun admin => ?_⟩
      exact rendered_only update_vouched
  | deleteBinding id token =>
      cases hr
      refine ⟨_, by rw [serve], fun admin => ?_⟩
      exact rendered_only delete_vouched
  | refreshRooms token =>
      cases hr
      refine ⟨_, by rw [serve], fun admin => ?_⟩
      exact refreshRooms_vouched.bind fun _ => trivial
  | createTemplate form =>
      cases hr
      refine ⟨_, by rw [serve], fun admin => ?_⟩
      exact rendered_only createTemplate_vouched
  | deleteTemplate form =>
      cases hr
      refine ⟨_, by rw [serve], fun admin => ?_⟩
      exact rendered_only deleteTemplate_vouched

end

end MatrixIdentityAdmin.Ref.App
