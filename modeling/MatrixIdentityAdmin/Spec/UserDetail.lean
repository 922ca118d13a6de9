import MatrixIdentityAdmin.Ref.UserDetail
import MatrixIdentityAdmin.Spec.AuditTable
import MatrixIdentityAdmin.Spec.Promises

/-!
# What the page of a user says about the world

Every answer that comes back is true of the world, or it is an error, or it is
a list of sessions from which some are missing. `Honest` is what the admin may
then rely on whatever did not come back, `Complete` what there is to see when
everything did, the active sessions included.

The entries of the log are read from its table, by a query that may be answered in
any way the standard permits.
-/

namespace MatrixIdentityAdmin.Ref

open MatrixIdentityAdmin.Lib

namespace World

variable (w : World)

/-- What Keycloak has about a record. The groups and the roles are asked for by
themselves. -/
structure Describes (r : KeycloakUser) (u : CanonicalUser) : Prop where
  id : u.id = r.id
  username : u.username = r.username
  enabled : u.enabled = r.enabled
  email : u.email = (w.profiles r.id).email
  firstName : u.firstName = (w.profiles r.id).firstName
  lastName : u.lastName = (w.profiles r.id).lastName
  requiredActions : u.requiredActions = (w.profiles r.id).requiredActions

/-- The table of the audit log: every entry, in the order of writing, with an id and
a stamp. -/
def StoredIn (json : List (String × MetaValue) → String) (table : List AuditLog) : Prop :=
  List.Forall₂ (fun entry row => ∃ id secs, AuditService.log json id secs entry = some row)
    w.audit table

/-- The answer is true of the world. -/
def Tells : (c : DetailCall) → DetailAnswer c → Prop
  | .getUser id, .ok u => ∃ r, w.realm.byId id = some r ∧ w.Describes r u
  | .getUserGroups id, .ok groups => groups = w.groupNames id
  | .getUserRoles id, .ok roles => roles = w.roleNames id
  | .getUserByUsername n, .ok found => found = w.accounts.byName n
  | .listSessions id, .ok l => l.sessions.Subperm (w.sessions id)
  | .forUser id limit, .ok logs => ∃ json clock table, w.StoredIn json table ∧
      AuditTable.Yields clock table (AuditDb.forUser id limit) (.ok logs)
  | _, .error _ => True

/-- Nothing failed, and no active session is missing. -/
def Full : (c : DetailCall) → DetailAnswer c → Prop
  | .listSessions id, .ok l => (w.active id).Subperm l.sessions
  | _, .ok _ => True
  | _, .error _ => False

/-- The MAS account of a record has been deactivated. -/
def MasDeactivated (username : String) : Prop :=
  ∃ a, w.accounts.byName username = some a ∧ a.deactivatedAt.isSome

/-- The user is kept out, by Keycloak or by MAS. -/
def KeptOut (u : KeycloakUser) : Prop :=
  u.enabled = false ∨ w.MasDeactivated u.username

/-- The sessions of the MAS account of that name. -/
def sessionsNamed (username : String) : List MasSession :=
  ((w.accounts.byName username).map fun a => w.sessions a.id).getD []

/-- How many of them are active. -/
def activeSessions (username : String) : Nat :=
  (w.sessionsNamed username).countP fun s => s.finishedAt.isNone

end World

namespace Users

open UserService (unifiedSession)

variable (w : World) (u : KeycloakUser) (page : DetailTemplate)

/-- The row is that of the entry. -/
structure ShowsEntry (row : AuditRow) (entry : AuditEntry) : Prop where
  action : row.action = entry.action
  result : row.result = toString entry.result
  adminUsername : row.adminUsername = entry.adminUsername

/-- What holds of the page of a record however much could not be read. -/
structure Honest : Prop where
  id : page.user.keycloakId = u.id
  username : page.user.username = u.username
  enabled : page.user.enabled = u.enabled
  email : page.user.email = (w.profiles u.id).email
  firstName : page.user.firstName = (w.profiles u.id).firstName
  lastName : page.user.lastName = (w.profiles u.id).lastName
  /-- Who is disabled is shown as disabled. -/
  barred : u.enabled = false → page.user.lifecycleState = .disabled
  /-- Who is shown as disabled is disabled, in one place or the other. -/
  disabled : page.user.lifecycleState = .disabled → w.KeptOut u
  /-- Who is shown as invited or as active is enabled, with or without something left
  to do. -/
  invited : page.user.lifecycleState = .invited →
    u.enabled = true ∧ (w.profiles u.id).requiredActions ≠ []
  active : page.user.lifecycleState = .active →
    u.enabled = true ∧ (w.profiles u.id).requiredActions = []
  confirmed : page.user.correlationStatus = .confirmed →
    ∃ a, w.accounts.byName u.username = some a
  groups : page.user.groups = w.groupNames u.id ∨ page.user.groups = []
  roles : page.user.roles = w.roleNames u.id ∨ page.user.roles = []
  /-- No session is made up, and none that is over is shown as active. -/
  sessions : page.user.sessions.Subperm
    ((w.sessionsNamed u.username).map unifiedSession)
  activeCount : page.activeSessionCount ≤ w.activeSessions u.username
  rows : page.activeSessionCount + page.finishedSessionCount =
    page.user.sessions.length
  /-- The rows of the log are entries about the record, newest first, and few. -/
  logs : ∃ entries, entries.Subperm (w.trail u.id) ∧
    List.Forall₂ ShowsEntry page.auditLogs entries
  newest : page.auditLogs.Pairwise fun a b => b.timestamp ≤ a.timestamp
  few : page.auditLogs.length ≤ 20

/-- What holds of it besides when nothing failed. -/
structure Complete : Prop where
  disabled : page.user.lifecycleState = .disabled ↔ w.KeptOut u
  invited : page.user.lifecycleState = .invited ↔
    ¬ w.KeptOut u ∧ (w.profiles u.id).requiredActions ≠ []
  active : page.user.lifecycleState = .active ↔
    ¬ w.KeptOut u ∧ (w.profiles u.id).requiredActions = []
  confirmed : page.user.correlationStatus = .confirmed ↔
    ∃ a, w.accounts.byName u.username = some a
  groups : page.user.groups = w.groupNames u.id
  roles : page.user.roles = w.roleNames u.id
  sessions : (((w.sessionsNamed u.username).filter fun s => s.finishedAt.isNone).map
    unifiedSession).Subperm page.user.sessions
  activeCount : page.activeSessionCount = w.activeSessions u.username
  logs : page.auditLogs.length = min 20 (w.trail u.id).length

end Users

end MatrixIdentityAdmin.Ref
