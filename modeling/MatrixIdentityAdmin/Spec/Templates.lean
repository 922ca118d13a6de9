import MatrixIdentityAdmin.Lib.Sections
import MatrixIdentityAdmin.Ref.Templates

/-!
# The file under the templates

The file is what the requests share, so a request at work is a program with a
section: it looks at the file, and then it may empty it and write. What a
request is for is to edit a list, and that is said without the file.
-/

namespace MatrixIdentityAdmin.Ref.Templates

open MatrixIdentityAdmin.Lib

/-- A file that may not exist, and its bytes. -/
abbrev File : Type := Option ByteArray

namespace File

def read : File → Except String (Option String)
  | none => .ok none
  | some bytes =>
      match String.fromUTF8? bytes with
      | some contents => .ok (some contents)
      | none => .error "stream did not contain valid UTF-8"

/-- Written from the start of the file, over what is there. -/
def overwrite (file : File) (contents : String) : File :=
  let bytes := file.getD ByteArray.empty
  some (contents.toUTF8 ++ bytes.extract contents.toUTF8.size bytes.size)

def step (file : File) : (c : TemplateCall) → c.Answer → File → Prop
  | .read => fun x file' => x = file.read ∧ file' = file
  | .create => fun x file' => x = .ok () ∧ file' = some ByteArray.empty
  | .writeAll contents => fun x file' =>
      x = .ok () ∧ file' = file.overwrite contents
  | .audit _ => fun _ file' => file' = file

end File

/-- Requests at work on the file. There is no await between the look at the
file and the end of the write, so none is dropped there. -/
def files : Shared Bool TemplateCall TemplateCall.Answer File where
  step _ := File.step
  drop _ _ _ := False

def Writing : TemplateCall → Prop
  | .create | .writeAll _ => True
  | .read | .audit _ => False

/-- A request opens its section with the look at the file. -/
def sections : Sections files where
  opens c := c = .read
  inside := Writing
  kept _ _ _ := id
  apart {i file c x file'} hread hwriting hs := by
    change File.step file c x file' at hs
    cases c with
    | read => exact absurd rfl hread
    | create => exact absurd trivial hwriting
    | writeAll contents => exact absurd trivial hwriting
    | audit entry => exact ⟨hs, fun _ => rfl⟩

/-- A `POST` of a signed-in admin. -/
inductive Request where
  | create (admin : Admin) (form : CreateForm)
  | delete (admin : Admin) (form : DeleteForm)
deriving DecidableEq, Repr

namespace Request

def handle (serde : SerdeJson) : Request → Task (Result String)
  | .create admin form => Templates.create serde admin form
  | .delete admin form => Templates.delete serde admin form

/-- The template a request is about. -/
def name : Request → String
  | .create _ form => Text.trim form.name
  | .delete _ form => form.name

/-- The token of the form is that of the session. -/
def Valid : Request → Prop
  | .create admin form => admin.csrfToken = form.csrf
  | .delete admin form => admin.csrfToken = form.csrf

/-- The list a request wants to have saved, if any. -/
def change : Request → List OnboardingTemplate → Option (List OnboardingTemplate)
  | .create _ form, templates =>
      if form.template.name.toList.isEmpty then none
      else if templates.any fun t => t.name = form.template.name then none
      else some (templates ++ [form.template])
  | .delete _ form, templates => some (templates.filter fun t => t.name ≠ form.name)

/-- What a request does to the list. It fails, and leaves it, when the new list
cannot be printed. -/
def edit (serde : SerdeJson) (req : Request) (templates : List OnboardingTemplate) :
    List OnboardingTemplate :=
  match req.change templates with
  | none => templates
  | some changed =>
      if (serde.toStringPretty changed).isOk then changed else templates

end Request

/-- The list a file stands for, when it can be read. -/
def templatesIn (serde : SerdeJson) : File → Option (List OnboardingTemplate)
  | none => some []
  | some bytes => (String.fromUTF8? bytes).bind fun contents =>
      (parseTemplates serde contents).toOption

/-- What is printed can be read. -/
def SerdeJson.Lawful (serde : SerdeJson) : Prop :=
  ∀ templates json, serde.toStringPretty templates = .ok json →
    serde.fromStr json = .ok templates ∧ (Text.trim json).toList.isEmpty = false

end MatrixIdentityAdmin.Ref.Templates
