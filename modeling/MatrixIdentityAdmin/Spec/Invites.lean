import MatrixIdentityAdmin.Lib.Hoare
import MatrixIdentityAdmin.Ref.Invite

/-!
# What an invitation may do, and what it has to show for it

An invitation creates an account and may bring one back to life, for an
address somebody typed into a form. `Admitted` is what the address has to be,
`Allows` what the exchanges so far must show before a call is sent. `Recorded`
is about the other end: what was granted on the way is named in an entry.
-/

namespace MatrixIdentityAdmin.Ref.InviteUser

open MatrixIdentityAdmin.Lib

abbrev Exchange : Type := Event InviteCall InviteCall.Answer

/-- The calls of the template block. -/
def OfTemplate : InviteCall → Prop
  | .keycloak .listGroups | .keycloak .listRealmRoles
  | .keycloak (.addUserToGroup ..) | .keycloak (.assignRealmRoles ..) => True
  | _ => False

/-- The address passes the validation, its domain is on the list if there is
one, and its local part is a Matrix localpart. -/
structure Admitted (tables : CaseTables) (rawEmail : String)
    (allowedDomains : Option String) (v : ValidatedInviteEmail) : Prop where
  valid : validateInviteEmail tables rawEmail = .ok v
  text : v.email = Text.toLowercase tables (Text.trim rawEmail)
  parts : v.email = v.localPart ++ "@" ++ v.domain
  domain : ∀ s, allowedDomains = some s → ∃ d ∈ Text.split s ',',
    Text.toLowercase tables (Text.trim d) = v.domain
  localPart : isValidMatrixLocalpart v.localPart = true

section

variable (v : ValidatedInviteEmail) (t : List Exchange)

/-- The account of the e-mail was created under this id. -/
def Created (userId : String) : Prop :=
  ⟨.keycloak (.createUser v.localPart v.email), .ok userId⟩ ∈ t

/-- This is what MAS said about the local part. -/
def LookedUp (found : Result (Option MasUser)) : Prop :=
  ⟨.mas (.getUserByUsername v.localPart), found⟩ ∈ t

/-- The MAS account is active again, and that is on record. -/
def Revived (m : MasUser) : Prop :=
  ⟨.mas (.reactivateUser m.id), .ok ()⟩ ∈ t ∧
    ∃ entry, entry.action = "reactivate_mas_user" ∧ entry.result = .success ∧
      ⟨.audit entry, .ok ()⟩ ∈ t

/-- What the exchanges so far must show before a call is sent. -/
def Allows : InviteCall → Prop
  | .keycloak (.createUser username email) =>
      username = v.localPart ∧ email = v.email ∧
        ⟨.keycloak (.getUserByEmail v.email), .ok none⟩ ∈ t ∧
        ∀ name mail, .keycloak (.createUser name mail) ∉ calls t
  | .mas (.reactivateUser id) =>
      (∃ userId, Created v t userId) ∧ ∃ m, LookedUp v t (.ok (some m)) ∧
        m.id = id ∧ m.deactivatedAt.isSome = true
  | .keycloak (.sendInviteEmail id) =>
      Created v t id ∧ (∀ i, .keycloak (.sendInviteEmail i) ∉ calls t) ∧
        ∃ found, LookedUp v t found ∧ ∀ m, found = .ok (some m) →
          m.deactivatedAt.isSome = true → Revived t m
  | _ => True

/-- The e-mail went out to the new account, and that is on record. -/
def Sent : Prop :=
  ∃ id entry, Created v t id ∧ entry.action = "invite_user" ∧
    entry.result = .success ∧ entry.targetKeycloakUserId = some id ∧
    ⟨.keycloak (.sendInviteEmail id), .ok ()⟩ ∈ t ∧ ⟨.audit entry, .ok ()⟩ ∈ t

end

/-! ## What was granted -/

section

variable (t : List Exchange)

/-- An entry about the account names `name` in one of its lists. Whether the
entry could be written is another matter. -/
def Named (userId key name : String) : Prop :=
  ∃ entry, .audit entry ∈ calls t ∧ entry.targetKeycloakUserId = some userId ∧
    ∃ names, (key, MetaValue.list names) ∈ entry.metadata ∧ name ∈ names

def GrantedGroup (userId groupId : String) : Prop :=
  ⟨.keycloak (.addUserToGroup userId groupId), .ok ()⟩ ∈ t

def GrantedRole (userId : String) (role : KeycloakRole) : Prop :=
  ∃ roles, ⟨.keycloak (.assignRealmRoles userId roles), .ok ()⟩ ∈ t ∧
    role ∈ roles

/-- The realm has a group of this id and name. -/
def HasGroup (groupId name : String) : Prop :=
  ∃ groups, ⟨.keycloak .listGroups, .ok groups⟩ ∈ t ∧
    ∃ g ∈ groups, g.id = groupId ∧ g.name = name

/-- Every group and every role that was granted is named in an entry. -/
structure Recorded : Prop where
  group : ∀ userId groupId, GrantedGroup t userId groupId →
    ∃ name, HasGroup t groupId name ∧ Named t userId "assigned_groups" name
  role : ∀ userId role, GrantedRole t userId role →
    Named t userId "assigned_roles" role.name

/-- Something was granted. -/
def Grants : Prop :=
  (∃ userId groupId, GrantedGroup t userId groupId) ∨
    ∃ userId role, GrantedRole t userId role

/-- MAS has a deactivated account of the name. -/
def Ghost (m : MasUser) : Prop :=
  (∃ name, ⟨.mas (.getUserByUsername name), .ok (some m)⟩ ∈ t) ∧
    m.deactivatedAt.isSome = true

end

end MatrixIdentityAdmin.Ref.InviteUser
