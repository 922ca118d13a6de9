import MatrixIdentityAdmin.Lib.Exec
import MatrixIdentityAdmin.Ref.AccountHandlers
import MatrixIdentityAdmin.Ref.PolicyHandlers
import MatrixIdentityAdmin.Ref.PolicyOptions

/-!
# From a group to a binding to its members

A realm has a tree of groups, in which a name is unique among siblings and not
beyond them. A group is offered as an option, an option becomes the subject of a
binding, and a user is held against the subject by the names of their groups.
What is followed here is one group on this way.
-/

namespace MatrixIdentityAdmin.Ref

open MatrixIdentityAdmin.Lib

/-! ## The realm -/

/-- A group of the realm and the groups under it. -/
inductive GroupTree where
  | node (group : KeycloakGroup) (subgroups : List GroupTree)

namespace GroupTree

def group : GroupTree → KeycloakGroup
  | .node g _ => g

mutual

/-- The groups of a tree, and of the trees of a level. -/
def groups : GroupTree → List KeycloakGroup
  | .node g subgroups => g :: groupsOf subgroups

def groupsOf : List GroupTree → List KeycloakGroup
  | [] => []
  | tree :: trees => tree.groups ++ groupsOf trees

end

mutual

/-- A path leads from the top to the group by the names, and the names of
siblings differ. -/
def Placed (parent : String) : GroupTree → Prop
  | .node g subgroups => g.path = parent ++ "/" ++ g.name ∧
      (subgroups.map fun tree => tree.group.name).Nodup ∧ AllPlaced g.path subgroups

def AllPlaced (parent : String) : List GroupTree → Prop
  | [] => True
  | tree :: trees => tree.Placed parent ∧ AllPlaced parent trees

end

end GroupTree

/-- The groups of a realm and the ids of those each user is a member of. -/
structure GroupRealm where
  tops : List GroupTree
  memberships : String → List String
  ids : ((GroupTree.groupsOf tops).map KeycloakGroup.id).Nodup
  siblings : (tops.map fun tree => tree.group.name).Nodup
  placed : GroupTree.AllPlaced "" tops

namespace GroupRealm

variable (R : GroupRealm)

def all : List KeycloakGroup := GroupTree.groupsOf R.tops

/-- The groups a user is a member of. -/
def groupsOf (user : String) : List KeycloakGroup :=
  R.all.filter fun g => (R.memberships user).contains g.id

/-- What `list_groups` lists. -/
def listing : List KeycloakGroup := R.tops.map GroupTree.group

/-- The groups of a user are asked for and come back in some order, if they come
back. The rest of the world may answer as it likes. -/
def env : Env Call Answer Unit where
  pre _ _ := True
  step _ c x _ := ∀ user gs, (⟨c, x⟩ : Exchange) =
    ⟨.keycloak (.getUserGroups user), .ok gs⟩ → ∀ g, g ∈ gs ↔ g ∈ R.groupsOf user

/-- The group has an option in the fragment `api_groups` answers with. -/
structure Offers (g : KeycloakGroup) : Prop where
  listed : g ∈ R.listing
  shown : ∃ html, PolicyHandlers.apiGroups.Runs
      [⟨.keycloak .listGroups, .ok R.listing⟩] (.ok html) ∧
    (PolicyHandlers.subjectOption g.name).toList <:+: html.toList

end GroupRealm

/-! ## The binding -/

/-- The value of an attribute: the text with its character references, those the
fragment is written with, resolved. -/
def attributeValue : List Char → List Char
  | '&' :: 'a' :: 'm' :: 'p' :: ';' :: cs => '&' :: attributeValue cs
  | '&' :: 'l' :: 't' :: ';' :: cs => '<' :: attributeValue cs
  | '&' :: 'g' :: 't' :: ';' :: cs => '>' :: attributeValue cs
  | '&' :: 'q' :: 'u' :: 'o' :: 't' :: ';' :: cs => '"' :: attributeValue cs
  | '&' :: '#' :: '3' :: '9' :: ';' :: cs => Char.ofNat 39 :: attributeValue cs
  | c :: cs => c :: attributeValue cs
  | [] => []

/-- The option for `name` is the one that is picked in the form. -/
structure Picks (form : PolicyHandlers.CreateBindingForm) (name : String) : Prop where
  type : form.subjectType = "group"
  value : form.subjectValue =
    String.ofList (attributeValue (PolicyHandlers.escapeHtml name).toList)

/-- The binding was stored for a form in which the group was picked. -/
def CreatedFrom (g : KeycloakGroup) (b : PolicyBinding) : Prop :=
  ∃ (admin : Admin) (form : PolicyHandlers.CreateBindingForm)
    (t : List (Event StoreCall StoreCall.Answer)) (row : BindingRow)
    (k : StoreCall.Answer (.sql (.insertBinding row)) → Store (Result String)),
    Picks form g.name ∧
    (PolicyHandlers.create admin form).Reaches t (.call (.sql (.insertBinding row)) k) ∧
    b = row.toBinding

/-! ## The users -/

/-- The requests that hold users against the bindings. -/
inductive MembershipRequest where
  | reconcile (keycloakId csrf : String)
  | reconcilePreview (keycloakId csrf : String)
  | bulkReconcile (fuel : Nat) (csrf : String)

def MembershipRequest.run (state : AppState) (admin : Admin) :
    MembershipRequest → Async Unit
  | .reconcile keycloakId csrf => (Ref.reconcile state admin keycloakId csrf).shape
  | .reconcilePreview keycloakId csrf =>
      (Ref.reconcilePreview state admin keycloakId csrf).shape
  | .bulkReconcile fuel csrf => (Ref.bulkReconcile state admin fuel csrf).shape

/-- The program has come to go through the bindings for somebody, and is about
to make the call `c` for it. -/
inductive GoingThrough {α : Type} (p : Async α) (t : List Exchange) (c : Call)
    (user : String) (groups roles : List String) : Prop where
  | reconcile {t₁ t₂ : List Exchange} {m actorSubject actorUsername : String}
      {bindings : List PolicyBinding} {f : Result WorkflowOutcome → Async α}
      {k : Answer c → Async (Result WorkflowOutcome)} (trace : t = t₁ ++ t₂)
      (begun : p.Reaches t₁ (reconcileMembership user m groups roles actorSubject
        actorUsername bindings >>= f))
      (within : (reconcileMembership user m groups roles actorSubject actorUsername
        bindings).Reaches t₂ (.call c k))
  | preview {t₁ t₂ : List Exchange} {m : String} {bindings : List PolicyBinding}
      {f : Result ReconcilePreview → Async α}
      {k : Answer c → Async (Result ReconcilePreview)} (trace : t = t₁ ++ t₂)
      (begun : p.Reaches t₁ (previewMembership m bindings groups roles >>= f))
      (within : (previewMembership m bindings groups roles).Reaches t₂ (.call c k))

/-- A call made for a user with the groups that were fetched for them: the
bindings are held against the names of these. -/
structure MadeForMember {α : Type} (p : Async α) (t : List Exchange) (c : Call)
    (user : String) (gs : List KeycloakGroup) (roles : List String) : Prop where
  fetched : ⟨.keycloak (.getUserGroups user), .ok gs⟩ ∈ t
  through : GoingThrough p t c user (gs.map fun g => g.name) roles

end MatrixIdentityAdmin.Ref
