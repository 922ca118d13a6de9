import MatrixIdentityAdmin.Spec.Invites

/-!
# What became of a template

A template is two lists of names, in which a name may come twice or be one the
realm does not know. The entry at the end of an invitation has four lists. An
`Occurrence` is one place in a list of the template and what happened there, and
`Accounts` says that two of the four are made of the places of one list, each
in the right one of them.
-/

namespace MatrixIdentityAdmin.Ref.InviteUser

open MatrixIdentityAdmin.Lib

section

variable {ε : Type}

/-- A place in a list of names: where the realm knows the name, the entry that
was to be granted and what came of it. -/
structure Occurrence (ε : Type) where
  name : String
  grant : Option (ε × Result Unit)

namespace Occurrence

/-- The grant returned `Ok`. -/
def granted (o : Occurrence ε) : Bool := o.grant.any fun g => g.2.isOk

/-- The entries the realm was asked to grant, in order. -/
def entries (l : List (Occurrence ε)) : List ε := l.filterMap fun o => o.grant.map Prod.fst

end Occurrence

/-- The occurrences `l` are those of `names`, in order. Each stands for the first
entry of its name in the catalogue, and it is in the one list if that was granted
and in the other if not. -/
structure Accounts (nameOf : ε → String) (catalogue : List ε)
    (names assigned failed : List String) (l : List (Occurrence ε)) : Prop where
  names : l.map Occurrence.name = names
  first : ∀ o ∈ l, o.grant.map Prod.fst = catalogue.find? fun g => nameOf g = o.name
  assigned : assigned = (l.filter fun o => o.granted).map Occurrence.name
  failed : failed.Perm ((l.filter fun o => !o.granted).map Occurrence.name)

end

/-- The exchanges about the groups: the catalogue, then one call for each
occurrence of a group there is. -/
def groupExchanges (userId : String) (listed : Result (List KeycloakGroup))
    (l : List (Occurrence KeycloakGroup)) : List Exchange :=
  if l.isEmpty then []
  else ⟨.keycloak .listGroups, listed⟩ :: l.filterMap fun o =>
    o.grant.map fun g => ⟨.keycloak (.addUserToGroup userId g.1.id), g.2⟩

/-- The exchanges about the roles: the catalogue, then one call for all
occurrences of a role there is. -/
def roleExchanges (userId : String) (listed : Result (List KeycloakRole))
    (batch : Result Unit) (l : List (Occurrence KeycloakRole)) : List Exchange :=
  if l.isEmpty then []
  else ⟨.keycloak .listRealmRoles, listed⟩ ::
    if (Occurrence.entries l).isEmpty then []
    else [⟨.keycloak (.assignRealmRoles userId (Occurrence.entries l)), batch⟩]

/-- These exchanges are those of the template, and the lists say how they went. -/
def Applies (tmpl : OnboardingTemplate) (userId : String) (block : List Exchange)
    (a : Assigned) : Prop :=
  ∃ groupsListed rolesListed batch groups roles,
    block = groupExchanges userId groupsListed groups ++
      roleExchanges userId rolesListed batch roles ∧
    Accounts KeycloakGroup.name (orEmpty groupsListed) tmpl.groups a.assignedGroups
      a.failedGroups groups ∧
    Accounts KeycloakRole.name (orEmpty rolesListed) tmpl.roles a.assignedRoles
      a.failedRoles roles ∧
    ∀ o ∈ roles, ∀ g, o.grant = some g → g.2 = batch

/-- The four lists, as the entry has them. -/
structure Lists (e : AuditEntry) (a : Assigned) : Prop where
  assignedGroups : e.metadata.lookup "assigned_groups" = some (.list a.assignedGroups)
  failedGroups : e.metadata.lookup "failed_groups" = some (.list a.failedGroups)
  assignedRoles : e.metadata.lookup "assigned_roles" = some (.list a.assignedRoles)
  failedRoles : e.metadata.lookup "failed_roles" = some (.list a.failedRoles)

/-- Some of the exchanges are those of the template for the new account, no
others are calls of their kind, and the entry is about them. -/
def AccountsFor (tmpl : OnboardingTemplate) (t : List Exchange) (e : AuditEntry)
    (a : Assigned) : Prop :=
  ∃ userId before block after, t = before ++ (block ++ after) ∧
    (∃ username email, ⟨.keycloak (.createUser username email), .ok userId⟩ ∈ before) ∧
    e.targetKeycloakUserId = some userId ∧
    (∀ c ∈ calls before ++ calls after, ¬ OfTemplate c) ∧
    Applies tmpl userId block a ∧ Lists e a

end MatrixIdentityAdmin.Ref.InviteUser
