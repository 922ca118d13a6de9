import MatrixIdentityAdmin.Ref.Handlers
import MatrixIdentityAdmin.Ref.Text

/-!
# `models/onboarding_template.rs`, `handlers/templates.rs`

The onboarding templates live in one file. To save them is to open the file,
which empties it, and then to write; another request may look at the file in
between. The library that writes and reads the JSON is a parameter.
-/

namespace MatrixIdentityAdmin.Ref

open MatrixIdentityAdmin.Lib

namespace Templates

/-- `serde_json::to_string_pretty` and `from_str`, for lists of templates. -/
structure SerdeJson where
  toStringPretty : List OnboardingTemplate → Except String String
  fromStr : String → Except String (List OnboardingTemplate)

/-- `read` is `Path::exists` and `read_to_string`, and answers `none` for a
file that does not exist; `create` and `writeAll` are the two halves of
`std::fs::write`. -/
inductive TemplateCall where
  | read
  | create
  | writeAll (contents : String)
  | audit (entry : AuditEntry)
deriving DecidableEq, Repr

abbrev TemplateCall.Answer : TemplateCall → Type
  | .read => Except String (Option String)
  | .create | .writeAll _ => Except String Unit
  | .audit _ => Result Unit

abbrev Task (α : Type) : Type := Prog TemplateCall TemplateCall.Answer α

def call (c : TemplateCall) : Task c.Answer := Prog.send c

/-- `.map_err(..)`. -/
def mapErr {α ε ε' : Type} (f : ε → ε') (p : Task (Except ε α)) :
    Task (Except ε' α) := do
  let r ← p
  return r.mapError f

section

variable (serde : SerdeJson)

/-- The end of `load_templates`. -/
def parseTemplates (contents : String) : Except String (List OnboardingTemplate) :=
  if (Text.trim contents).toList.isEmpty then .ok []
  else (serde.fromStr contents).mapError fun e =>
    s!"Failed to parse templates file: {e}"

/-- `load_templates`. -/
def loadTemplates : Task (Except String (List OnboardingTemplate)) :=
  (mapErr (fun e => s!"Failed to read templates file: {e}") (call .read)).andThen
    fun
    | none => return .ok []
    | some contents => return parseTemplates serde contents

/-- `save_templates`. -/
def saveTemplates (templates : List OnboardingTemplate) :
    Task (Except String Unit) :=
  match serde.toStringPretty templates with
  | .error e => return .error s!"Failed to serialize templates: {e}"
  | .ok json =>
      mapErr (fun e => s!"Failed to write templates file: {e}")
        ((call .create).andThen fun _ => call (.writeAll json))

/-- `CreateForm`. -/
structure CreateForm where
  csrf : String
  name : String
  description : String
  groups : String
  roles : String
deriving DecidableEq, Repr

/-- `DeleteForm`. -/
structure DeleteForm where
  csrf : String
  name : String
deriving DecidableEq, Repr

/-- The groups and the roles are given with commas between. -/
def items (s : String) : List String :=
  ((Text.split s ',').map Text.trim).filter fun s => !s.toList.isEmpty

def CreateForm.template (form : CreateForm) : OnboardingTemplate where
  name := Text.trim form.name
  description := form.description
  groups := items form.groups
  roles := items form.roles

/-- The audit row of a template that was created or deleted. -/
def templateEntry (admin : Admin) (action : String)
    (metadata : List (String × MetaValue)) : AuditEntry where
  adminSubject := admin.subject
  adminUsername := admin.username
  targetKeycloakUserId := none
  targetMatrixUserId := none
  action := action
  result := .success
  metadata := metadata

def createEntry (admin : Admin) (template : OnboardingTemplate) : AuditEntry :=
  templateEntry admin "create_onboarding_template"
    [("template_name", .str template.name), ("groups", .list template.groups),
      ("roles", .list template.roles)]

def deleteEntry (admin : Admin) (name : String) : AuditEntry :=
  templateEntry admin "delete_onboarding_template" [("template_name", .str name)]

/-- The end of both handlers: save, write it down, and go back to the page. -/
def saveAndRedirect (templates : List OnboardingTemplate) (entry : AuditEntry)
    (location : String) : Task (Result String) :=
  (mapErr .internal (saveTemplates serde templates)).andThen fun _ =>
    (call (.audit entry)).andThen fun _ => return .ok location

/-- `handlers::templates::create`. -/
def create (admin : Admin) (form : CreateForm) : Task (Result String) :=
  match validate admin.csrfToken form.csrf with
  | .error e => return .error e
  | .ok () =>
      if form.template.name.toList.isEmpty then
        return .ok "/templates?notice=Template+name+is+required"
      else
        (mapErr .internal (loadTemplates serde)).andThen fun templates =>
          if templates.any fun t => t.name = form.template.name then
            return .ok "/templates?notice=Template+name+already+exists"
          else
            saveAndRedirect serde (templates ++ [form.template])
              (createEntry admin form.template)
              "/templates?notice=Template+created"

/-- `handlers::templates::delete`. -/
def delete (admin : Admin) (form : DeleteForm) : Task (Result String) :=
  match validate admin.csrfToken form.csrf with
  | .error e => return .error e
  | .ok () =>
      (mapErr .internal (loadTemplates serde)).andThen fun templates =>
        saveAndRedirect serde (templates.filter fun t => t.name ≠ form.name)
          (deleteEntry admin form.name) "/templates?notice=Template+deleted"

end

end Templates

end MatrixIdentityAdmin.Ref
