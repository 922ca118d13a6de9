/-!
# The data the service moves around

One definition for each type of `models/` and `error.rs` that the workflows
read or write, with the fields they use and the texts they print. What only
the pages display (e-mail addresses, device lists, timestamps of sessions) is
left out.
-/

namespace MatrixIdentityAdmin.Ref

/-- `error::AppError`. The database and internal errors wrap an error of a
library; all the service ever does with that one is print it. -/
inductive AppError where
  | auth (msg : String)
  | upstream (service message : String)
  | validation (msg : String)
  | notFound (msg : String)
  | database (msg : String)
  | internal (msg : String)
deriving DecidableEq, Repr

instance : ToString AppError where
  toString
    | .auth msg => s!"Authentication error: {msg}"
    | .upstream service message =>
        s!"Upstream API error from {service}: {message}"
    | .validation msg => s!"Validation error: {msg}"
    | .notFound msg => s!"Not found: {msg}"
    | .database msg => s!"Database error: {msg}"
    | .internal msg => s!"Internal error: {msg}"

/-- `models::audit::AuditResult`. -/
inductive AuditResult where
  | success
  | failure
deriving DecidableEq, Repr

instance : ToString AuditResult where
  toString
    | .success => "success"
    | .failure => "failure"

/-- What every step writes down: `Success` when the call was `Ok`. -/
def AuditResult.of {ε α : Type} : Except ε α → AuditResult
  | .ok _ => .success
  | .error _ => .failure

/-- A value in the JSON object an audit entry carries. -/
inductive MetaValue where
  | str (s : String)
  | bool (b : Bool)
  | int (n : Int)
  | list (items : List String)
  | null
deriving DecidableEq, Repr

/-- The arguments of `AuditService::log`. -/
structure AuditEntry where
  adminSubject : String
  adminUsername : String
  targetKeycloakUserId : Option String
  targetMatrixUserId : Option String
  action : String
  result : AuditResult
  metadata : List (String × MetaValue)
deriving DecidableEq, Repr

/-- `models::workflow::WorkflowOutcome`. -/
structure WorkflowOutcome where
  warnings : List String
deriving DecidableEq, Repr

namespace WorkflowOutcome

def ok : WorkflowOutcome := ⟨[]⟩

def addWarning (outcome : WorkflowOutcome) (msg : String) : WorkflowOutcome :=
  ⟨outcome.warnings ++ [msg]⟩

/-- `outcome.warnings.extend(..)`. -/
def extend (outcome : WorkflowOutcome) (warnings : List String) :
    WorkflowOutcome :=
  ⟨outcome.warnings ++ warnings⟩

/-- `if let Err(e) = result { outcome.add_warning(..) }`. -/
def warnOn {α : Type} (outcome : WorkflowOutcome) (result : Except AppError α)
    (msg : AppError → String) : WorkflowOutcome :=
  match result with
  | .ok _ => outcome
  | .error e => outcome.addWarning (msg e)

def hasWarnings (outcome : WorkflowOutcome) : Bool := !outcome.warnings.isEmpty

def warningSummary (outcome : WorkflowOutcome) : String :=
  "; ".intercalate outcome.warnings

@[simp] theorem warnings_ok : ok.warnings = [] := rfl

@[simp] theorem warnings_addWarning (outcome : WorkflowOutcome) (msg : String) :
    (outcome.addWarning msg).warnings = outcome.warnings ++ [msg] := rfl

@[simp] theorem warnings_extend (outcome : WorkflowOutcome) (ws : List String) :
    (outcome.extend ws).warnings = outcome.warnings ++ ws := rfl

@[simp] theorem warnOn_ok {α : Type} (outcome : WorkflowOutcome) (a : α)
    (msg : AppError → String) : outcome.warnOn (.ok a) msg = outcome := rfl

@[simp] theorem warnOn_error {α : Type} (outcome : WorkflowOutcome)
    (e : AppError) (msg : AppError → String) :
    outcome.warnOn (.error e : Except AppError α) msg =
      outcome.addWarning (msg e) := rfl

theorem warnOn_clean {α : Type} {outcome : WorkflowOutcome}
    {result : Except AppError α} {msg : AppError → String} :
    (outcome.warnOn result msg).warnings = [] ↔
      outcome.warnings = [] ∧ ∃ a, result = .ok a := by
  cases result <;> simp

end WorkflowOutcome

/-! ## Keycloak and MAS -/

/-- `models::keycloak::KeycloakUser`. -/
structure KeycloakUser where
  id : String
  username : String
  enabled : Bool
deriving DecidableEq, Repr

/-- `models::keycloak::KeycloakGroup`. -/
structure KeycloakGroup where
  id : String
  name : String
  path : String
deriving DecidableEq, Repr

/-- `models::keycloak::KeycloakRole`. -/
structure KeycloakRole where
  id : String
  name : String
deriving DecidableEq, Repr

/-- `models::mas::MasUser`. -/
structure MasUser where
  id : String
  username : String
  deactivatedAt : Option String
deriving DecidableEq, Repr

/-- `models::mas::MasSession`. -/
structure MasSession where
  id : String
  sessionType : String
  finishedAt : Option String
deriving DecidableEq, Repr

/-- `models::mas::SessionListResult`. -/
structure SessionListResult where
  sessions : List MasSession
  warnings : List String
deriving DecidableEq, Repr

/-- `models::onboarding_template::OnboardingTemplate`. -/
structure OnboardingTemplate where
  name : String
  description : String
  groups : List String
  roles : List String
deriving DecidableEq, Repr

/-! ## Policy bindings -/

/-- `models::policy_binding::PolicySubject`. -/
inductive PolicySubject where
  | group (name : String)
  | role (name : String)
deriving DecidableEq, Repr

namespace PolicySubject

def subjectType : PolicySubject → String
  | .group _ => "group"
  | .role _ => "role"

def value : PolicySubject → String
  | .group v => v
  | .role v => v

instance : ToString PolicySubject where
  toString
    | .group v => s!"group:{v}"
    | .role v => s!"role:{v}"

end PolicySubject

/-- `models::policy_binding::PolicyTarget`. -/
inductive PolicyTarget where
  | room (id : String)
  | space (id : String)
deriving DecidableEq, Repr

namespace PolicyTarget

def targetType : PolicyTarget → String
  | .room _ => "room"
  | .space _ => "space"

def roomId : PolicyTarget → String
  | .room id => id
  | .space id => id

end PolicyTarget

/-- `models::policy_binding::PolicyBinding`. -/
structure PolicyBinding where
  id : String
  subject : PolicySubject
  target : PolicyTarget
  powerLevel : Option Int
  allowRemove : Bool
  createdAt : String
  updatedAt : String
deriving DecidableEq, Repr

end MatrixIdentityAdmin.Ref
