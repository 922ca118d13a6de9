import MatrixIdentityAdmin.Ref.App

/-!
# `handlers/invite.rs`

The two ways to an invitation. An admin comes with a session and a token in
the form, the bot with a secret in a header; the name of the template is looked
up in the templates file before the workflow starts.
-/

namespace MatrixIdentityAdmin.Ref

open MatrixIdentityAdmin.Lib

namespace InviteHandlers

open App

/-- `InviteRequest`. -/
structure InviteRequest where
  email : String
  invitedBy : String
  template : Option String
deriving DecidableEq, Repr

/-- What the extractor `Json` makes of a document. -/
def InviteRequest.fromValue (v : Value) : Option InviteRequest :=
  match v.structFields ["email", "invited_by", "template"] with
  | some [email, invitedBy, template] => do
      let email ← Value.readString email
      let invitedBy ← Value.readString invitedBy
      let template ← Value.readOption template
      return ⟨email, invitedBy, template⟩
  | _ => none

/-- `AdminInviteForm`. -/
structure AdminInviteForm where
  email : String
  csrf : String
  template : Option String
deriving DecidableEq, Repr

/-- The byte-wise encoder of this file's own `pct_encode`. Half a byte is a digit
`char::from_digit` has. -/
def pctEncodeByte (b : UInt8) : List Char :=
  let c := Char.ofNat b.toNat
  let upperDigit (n : UInt8) : Char := (Nat.digitChar n.toNat).toUpper
  if c.isAlphanum || c = '-' || c = '_' || c = '.' || c = '~' || c = ' ' then
    if c = ' ' then ['+'] else [c]
  else ['%', upperDigit (b >>> 4), upperDigit (b &&& 0xf)]

/-- `handlers::invite::pct_encode`. -/
def pctEncode (s : String) : String :=
  String.ofList (s.toUTF8.toList.flatMap pctEncodeByte)

/-- `.filter(|n| !n.is_empty())`. -/
def givenName (template : Option String) : Option String :=
  template.filter fun n => !n.toList.isEmpty

variable (config : Config)

/-- The template of a request: none is asked for, the file cannot be read, the
name is not in it, or here it is. -/
inductive Lookup where
  | notAsked
  | unreadable (e : String)
  | unknown (name : String)
  | found (template : OnboardingTemplate)

/-- The block with which both handlers look their template up. -/
def lookUp (template : Option String) : Handler Lookup :=
  match givenName template with
  | none => return .notAsked
  | some name => do
      match ← templates (Templates.loadTemplates config.serde) with
      | .error e => return .unreadable e
      | .ok templates =>
          match templates.find? fun t => t.name = name with
          | none => return .unknown name
          | some template => return .found template

/-- A redirect of `admin_invite` with its error. -/
def errorRedirect (msg : String) : Response :=
  .redirect s!"/?error={pctEncode msg}"

/-- Call `invite_user` and say how it went. -/
def inviteAs (admin : Admin) (email : String)
    (template : Option OnboardingTemplate) : Handler Response := do
  match ← onboarding (InviteUser.inviteUser admin.subject admin.username
      config.homeserverDomain config.tables email config.inviteAllowedDomains
      none template) with
  | .ok email =>
      let notice := pctEncode s!"Invite sent to {email}"
      return .redirect s!"/?notice={notice}"
  | .error e => return errorRedirect (toString e)

/-- `handlers::invite::admin_invite`. -/
def adminInvite (admin : Admin) (form : AdminInviteForm) : Handler Response :=
  match validate admin.csrfToken form.csrf with
  | .error e => return errorRedirect (toString e)
  | .ok () => do
      match ← lookUp config form.template with
      | .unreadable e => return errorRedirect e
      | .unknown _ => return errorRedirect "Unknown onboarding template"
      | .notAsked => inviteAs config admin form.email none
      | .found template => inviteAs config admin form.email (some template)

/-- What the bot has to send. -/
def expectedHeader : String := s!"Bearer {config.botApiSecret}"

def botActor : String := "bot-api"

/-- `invite_user` in the name of the bot. -/
def inviteAsBot (body : InviteRequest) (template : Option OnboardingTemplate) :
    Handler (Result String) :=
  onboarding (InviteUser.inviteUser botActor botActor config.homeserverDomain
    config.tables body.email config.inviteAllowedDomains (some body.invitedBy)
    template)

/-- `handle_invite`. A header that is missing, or is not text, is as good as an
empty one. -/
def handleInvite (authorization : Option String) (body : InviteRequest) :
    Handler (Result String) :=
  if authorization.getD "" ≠ expectedHeader config then
    return .error (.auth "Invalid bot API secret")
  else do
    match ← lookUp config body.template with
    | .unreadable e => return .error (.internal e)
    | .unknown name => return .error (.validation s!"Unknown template: {name}")
    | .notAsked => inviteAsBot config body none
    | .found template => inviteAsBot config body (some template)

/-- `json!({"ok": .., "message": ..})`. -/
def inviteBody (ok : Bool) (message : String) : Value :=
  .object [("ok", .bool ok), ("message", .string message)]

/-- What the bot is told about an error. -/
def inviteError (e : AppError) : Response :=
  match e with
  | .auth _ => .json 401 false (toString e)
  | .validation msg => .json 422 false msg
  | .upstream service message =>
      .json 502 false s!"Upstream error ({service}): {message}"
  | _ => .json 500 false "Internal error"

/-- `handlers::invite::create_invite`. -/
def createInvite (authorization : Option String) (body : InviteRequest) :
    Handler Response := do
  match ← handleInvite config authorization body with
  | .ok msg => return .json 201 true msg
  | .error e => return inviteError e

end InviteHandlers

end MatrixIdentityAdmin.Ref
