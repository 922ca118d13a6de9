import MatrixIdentityAdmin.Ref.Calls
import MatrixIdentityAdmin.Ref.Text

/-!
# `services/invite_user.rs`

The invitation, from the raw text of the form to the e-mail that is sent. It
uses methods of `KeycloakIdentityProvider` that no other workflow does, so its
calls are an enumeration of their own.
-/

namespace MatrixIdentityAdmin.Ref

open MatrixIdentityAdmin.Lib

/-- The methods of `KeycloakIdentityProvider` an invitation uses. -/
inductive OnboardingCall where
  | getUserByEmail (email : String)
  | createUser (username email : String)
  | sendInviteEmail (userId : String)
  | listGroups
  | listRealmRoles
  | addUserToGroup (userId groupId : String)
  | assignRealmRoles (userId : String) (roles : List KeycloakRole)
deriving DecidableEq, Repr

abbrev OnboardingCall.Ret : OnboardingCall → Type
  | .getUserByEmail _ => Option KeycloakUser
  | .createUser .. => String
  | .listGroups => List KeycloakGroup
  | .listRealmRoles => List KeycloakRole
  | .sendInviteEmail _ | .addUserToGroup .. | .assignRealmRoles .. => Unit

/-- A call of an invitation. -/
inductive InviteCall where
  | keycloak (c : OnboardingCall)
  | mas (c : AuthCall)
  | audit (entry : AuditEntry)
deriving DecidableEq, Repr

abbrev InviteCall.Ret : InviteCall → Type
  | .keycloak c => c.Ret
  | .mas c => c.Ret
  | .audit _ => Unit

abbrev InviteCall.Answer (c : InviteCall) : Type := Result c.Ret

/-- `models::unified::is_valid_matrix_localpart`. -/
def isValidMatrixLocalpart (s : String) : Bool :=
  !s.toList.isEmpty && s.toList.all fun c =>
    Text.isAsciiLowercase c || Text.isAsciiDigit c || "._=-/".toList.contains c

/-- `Config::invite_allowed_domains`, from `INVITE_ALLOWED_DOMAINS`. A variable
that is not set is `none`, and so is one `std::env::var` cannot read. -/
def Config.inviteAllowedDomains (tables : CaseTables) (var : Option String) :
    Option (List String) :=
  var.map fun s =>
    ((Text.split s ',').map fun d => Text.toLowercase tables (Text.trim d)).filter
      fun d => !d.toList.isEmpty

namespace InviteUser

/-- `ValidatedInviteEmail`. -/
structure ValidatedInviteEmail where
  email : String
  localPart : String
  domain : String
deriving DecidableEq, Repr

def maxEmailLen : Nat := 254

def maxLocalLen : Nat := 64

def maxDomainLen : Nat := 253

def isValidEmailLocalpart (s : String) : Bool :=
  !Text.startsWith s '.' && !Text.endsWith s '.' && !Text.containsStr s ".." &&
    s.toList.all fun c =>
      Text.isAsciiLowercase c || Text.isAsciiDigit c ||
        "!#$%&'*+/=?^_`\x7b\x7d~-.".toList.contains c

/-- What ends the loop over the labels early. -/
def isValidLabel (label : String) : Bool :=
  !(label.toList.isEmpty || Text.len label > 63 || Text.startsWith label '-' ||
    Text.endsWith label '-' || !label.toList.all fun c =>
      Text.isAsciiLowercase c || Text.isAsciiDigit c || c == '-')

def isValidEmailDomain (domain : String) : Bool :=
  if Text.startsWith domain '.' || Text.endsWith domain '.' ||
      Text.containsStr domain ".." then false
  else
    let labels := Text.split domain '.'
    labels.all isValidLabel && decide (labels.length ≥ 2)

def invalidEmail : AppError := .validation "Invalid email address"

def validateInviteEmail (tables : CaseTables) (rawEmail : String) :
    Result ValidatedInviteEmail :=
  let email := Text.toLowercase tables (Text.trim rawEmail)
  if email.toList.isEmpty || Text.len email > maxEmailLen then
    .error invalidEmail
  else if email.toList.count '@' ≠ 1 then
    .error invalidEmail
  else
    match Text.splitOnce email '@' with
    | none => .error invalidEmail
    | some (localPart, domain) =>
        if localPart.toList.isEmpty || domain.toList.isEmpty ||
            Text.len localPart > maxLocalLen || Text.len domain > maxDomainLen ||
            !isValidEmailLocalpart localPart || !isValidEmailDomain domain then
          .error invalidEmail
        else
          .ok ⟨email, localPart, domain⟩

/-! ## The workflow -/

abbrev Async (α : Type) : Type := Prog InviteCall InviteCall.Answer α

def keycloak (c : OnboardingCall) : Async (Result c.Ret) :=
  Prog.send (InviteCall.keycloak c)

def mas (c : AuthCall) : Async (Result c.Ret) := Prog.send (InviteCall.mas c)

def auditLog (entry : AuditEntry) : Async (Result Unit) :=
  Prog.send (InviteCall.audit entry)

/-- The four lists the template block fills. -/
structure Assigned where
  assignedGroups : List String
  failedGroups : List String
  assignedRoles : List String
  failedRoles : List String
deriving DecidableEq, Repr

namespace Assigned

def none : Assigned := ⟨[], [], [], []⟩

def group (a : Assigned) (name : String) : Assigned :=
  { a with assignedGroups := a.assignedGroups ++ [name] }

def failGroup (a : Assigned) (name : String) : Assigned :=
  { a with failedGroups := a.failedGroups ++ [name] }

def roles (a : Assigned) (names : List String) : Assigned :=
  { a with assignedRoles := a.assignedRoles ++ names }

def failRoles (a : Assigned) (names : List String) : Assigned :=
  { a with failedRoles := a.failedRoles ++ names }

end Assigned

/-- `unwrap_or_default()` of a listing. -/
def orEmpty {α : Type} : Result (List α) → List α
  | .ok items => items
  | .error _ => []

/-- One group of the template. -/
def assignGroup (userId : String) (allGroups : List KeycloakGroup)
    (a : Assigned) (groupName : String) : Async Assigned :=
  match allGroups.find? fun g => g.name = groupName with
  | some group => do
      match ← keycloak (.addUserToGroup userId group.id) with
      | .error _ => return a.failGroup groupName
      | .ok _ => return a.group groupName
  | none => return a.failGroup groupName

def assignGroups (userId : String) (groups : List String) (a : Assigned) :
    Async Assigned :=
  if groups.isEmpty then return a
  else do
    let allGroups := orEmpty (← keycloak .listGroups)
    groups.foldlM (assignGroup userId allGroups) a

/-- The roles of the template that the realm knows, in one call. -/
def assignRoles (userId : String) (roles : List String) (a : Assigned) :
    Async Assigned :=
  if roles.isEmpty then return a
  else do
    let allRoles := orEmpty (← keycloak .listRealmRoles)
    let matchedRoles := roles.filterMap fun name =>
      allRoles.find? fun r => r.name = name
    let a := a.failRoles (roles.filter fun name =>
      !allRoles.any fun r => r.name = name)
    if matchedRoles.isEmpty then return a
    else
      match ← keycloak (.assignRealmRoles userId matchedRoles) with
      | .error _ => return a.failRoles (matchedRoles.map KeycloakRole.name)
      | .ok _ => return a.roles (matchedRoles.map KeycloakRole.name)

/-- The template block. -/
def applyTemplate (userId : String) (template : Option OnboardingTemplate) :
    Async Assigned :=
  match template with
  | some tmpl => do
      let a ← assignGroups userId tmpl.groups .none
      assignRoles userId tmpl.roles a
  | none => return .none

/-- An optional text as JSON. -/
def optJson : Option String → MetaValue
  | some s => .str s
  | none => .null

section

variable (actorSubject actorUsername homeserverDomain : String)

def entry (userId localPart action : String) (result : AuditResult)
    (metadata : List (String × MetaValue)) : AuditEntry where
  adminSubject := actorSubject
  adminUsername := actorUsername
  targetKeycloakUserId := some userId
  targetMatrixUserId := some s!"@{localPart}:{homeserverDomain}"
  action := action
  result := result
  metadata := metadata

def reactivateEntry (v : ValidatedInviteEmail) (userId masUserId : String)
    (result : AuditResult) : AuditEntry :=
  entry actorSubject actorUsername homeserverDomain userId v.localPart
    "reactivate_mas_user" result
    [("email", .str v.email), ("mas_user_id", .str masUserId),
      ("keycloak_user_id", .str userId)]

def inviteEntry (v : ValidatedInviteEmail) (requestedBy : Option String)
    (template : Option OnboardingTemplate) (userId : String) (a : Assigned)
    (result : AuditResult) : AuditEntry :=
  entry actorSubject actorUsername homeserverDomain userId v.localPart
    "invite_user" result
    [("email", .str v.email), ("requested_by", optJson requestedBy),
      ("keycloak_user_id", .str userId),
      ("template", optJson (template.map OnboardingTemplate.name)),
      ("assigned_groups", .list a.assignedGroups),
      ("failed_groups", .list a.failedGroups),
      ("assigned_roles", .list a.assignedRoles),
      ("failed_roles", .list a.failedRoles)]

/-- The block that brings a deactivated MAS account of the name back. -/
def reactivateGhost (v : ValidatedInviteEmail) (userId : String)
    (existingMas : Option MasUser) : Async (Result Unit) :=
  match existingMas with
  | some masUser =>
      if masUser.deactivatedAt.isSome then do
        let reactivateResult ← mas (.reactivateUser masUser.id)
        (auditLog (reactivateEntry actorSubject actorUsername homeserverDomain v
          userId masUser.id (AuditResult.of reactivateResult))).andThen fun _ =>
            return reactivateResult
      else return .ok ()
  | none => return .ok ()

def inviteMessage (email : String) : String :=
  s!"Invite sent to {email} — they will receive an email to set their password and can then log into Matrix."

/-- The e-mail, its entry, and the answer. -/
def sendInvite (v : ValidatedInviteEmail) (requestedBy : Option String)
    (template : Option OnboardingTemplate) (userId : String) (a : Assigned) :
    Async (Result String) := do
  let inviteResult ← keycloak (.sendInviteEmail userId)
  (auditLog (inviteEntry actorSubject actorUsername homeserverDomain v
    requestedBy template userId a (AuditResult.of inviteResult))).andThen fun _ =>
      return inviteResult.map fun _ => inviteMessage v.email

def domainNotPermitted (domain : String) : AppError :=
  .validation s!"Email domain '{domain}' is not permitted"

def invalidLocalpart (localPart : String) : AppError :=
  .validation (s!"Email local-part '{localPart}' cannot be used as a Matrix username "
    ++ "(only lowercase letters, digits, and ._=-/ are allowed)")

def alreadyExists (email id : String) : AppError :=
  .validation s!"A user with email {email} already exists (id: {id})"

/-- `if let Some(allowed) = allowed_domains`. -/
def domainAllowed (allowedDomains : Option (List String)) (domain : String) :
    Bool :=
  match allowedDomains with
  | some allowed => allowed.any fun d => d = domain
  | none => true

/-- From the creation of the Keycloak account on. -/
def createAccount (v : ValidatedInviteEmail) (requestedBy : Option String)
    (template : Option OnboardingTemplate) (existingMas : Option MasUser) :
    Async (Result String) :=
  (keycloak (.createUser v.localPart v.email)).andThen fun userId => do
    let a ← applyTemplate userId template
    (reactivateGhost actorSubject actorUsername homeserverDomain v userId
      existingMas).andThen fun _ =>
        sendInvite actorSubject actorUsername homeserverDomain v requestedBy
          template userId a

/-- The calls to Keycloak and MAS, once the e-mail has passed. -/
def inviteValidated (v : ValidatedInviteEmail) (requestedBy : Option String)
    (template : Option OnboardingTemplate) : Async (Result String) :=
  (keycloak (.getUserByEmail v.email)).andThen fun existing =>
    match existing with
    | some user => return .error (alreadyExists v.email user.id)
    | none => do
        let existingMas := match ← mas (.getUserByUsername v.localPart) with
          | .ok user => user
          | .error _ => none
        createAccount actorSubject actorUsername homeserverDomain v requestedBy
          template existingMas

/-- `invite_user`. -/
def inviteUser (tables : CaseTables) (rawEmail : String)
    (allowedDomains : Option (List String)) (requestedBy : Option String)
    (template : Option OnboardingTemplate) : Async (Result String) :=
  match validateInviteEmail tables rawEmail with
  | .error e => return .error e
  | .ok v =>
      if !domainAllowed allowedDomains v.domain then
        return .error (domainNotPermitted v.domain)
      else if !isValidMatrixLocalpart v.localPart then
        return .error (invalidLocalpart v.localPart)
      else
        inviteValidated actorSubject actorUsername homeserverDomain v requestedBy
          template

end

end InviteUser

end MatrixIdentityAdmin.Ref
