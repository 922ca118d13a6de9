import MatrixIdentityAdmin.Ref.Handlers
import MatrixIdentityAdmin.Ref.Invite

/-!
# `handlers/users.rs`: the search, and what it is served by

`services/identity_mapper.rs`, `UserService::search` and the handler on top of
it. The search reaches Keycloak through two traits: the number of matches
comes from `KeycloakIdentityProvider`, the matches themselves from
`IdentityProvider`, as `CanonicalUser`s.

The page number and the count are `u32`s. Addition, subtraction and division
of the source stay in range here whatever they are given; the product does
not have to, and what it does then depends on how the service was built.
-/

namespace MatrixIdentityAdmin.Ref

open MatrixIdentityAdmin.Lib

/-! ## `models/unified.rs` -/

/-- `models::unified::CanonicalUser`. -/
structure CanonicalUser where
  id : String
  username : String
  email : Option String
  firstName : Option String
  lastName : Option String
  enabled : Bool
  groups : List String
  roles : List String
  requiredActions : List String
deriving DecidableEq, Repr

/-- `models::unified::LifecycleState`. -/
inductive LifecycleState where
  | invited
  | active
  | disabled
deriving DecidableEq, Repr

/-- `models::unified::CorrelationStatus`. -/
inductive CorrelationStatus where
  | confirmed
  | inferred
deriving DecidableEq, Repr

/-- `models::unified::UnifiedUserSummary`. -/
structure UnifiedUserSummary where
  keycloakId : String
  username : String
  email : Option String
  enabled : Bool
  lifecycleState : LifecycleState
  inferredMatrixId : Option String
  correlationStatus : CorrelationStatus
deriving DecidableEq, Repr

/-! ## `services/identity_mapper.rs` -/

/-- `services::identity_mapper::MappedIdentity`. -/
structure MappedIdentity where
  canonical : CanonicalUser
  inferredMatrixId : Option String
  correlationStatus : CorrelationStatus
deriving DecidableEq, Repr

/-- `IdentityMapper`. -/
structure IdentityMapper where
  homeserverDomain : String
deriving DecidableEq, Repr

namespace IdentityMapper

variable (mapper : IdentityMapper)

/-- `IdentityMapper::derive_matrix_id`. -/
def deriveMatrixId (username : String) : Option String :=
  if isValidMatrixLocalpart username then
    some s!"@{username}:{mapper.homeserverDomain}"
  else none

/-- `IdentityMapper::map_summary_only`. -/
def mapSummaryOnly (canonical : CanonicalUser) : MappedIdentity where
  canonical := canonical
  inferredMatrixId := mapper.deriveMatrixId canonical.username
  correlationStatus := .inferred

end IdentityMapper

/-! ## `services/user_service.rs` -/

/-- `derive_lifecycle_state`. -/
def deriveLifecycleState (kcEnabled : Bool) (requiredActions : List String)
    (masDeactivatedAt : Option String) : LifecycleState :=
  if !kcEnabled || masDeactivatedAt.isSome then .disabled
  else if !requiredActions.isEmpty then .invited
  else .active

/-- The two calls a search makes. -/
inductive SearchCall where
  | countUsers (query : String)
  | searchUsers (query : String) (max first : UInt32)
deriving DecidableEq, Repr

abbrev SearchCall.Ret : SearchCall → Type
  | .countUsers _ => UInt32
  | .searchUsers .. => List CanonicalUser

abbrev SearchAnswer (c : SearchCall) : Type := Result c.Ret

abbrev Searching (α : Type) : Type := Prog SearchCall SearchAnswer α

/-- `KeycloakIdentityProvider::count_users`. -/
def KeycloakIdentityProvider.countUsers (query : String) :
    Searching (Result UInt32) :=
  Prog.send (SearchCall.countUsers query)

/-- `IdentityProvider::search_users`. -/
def IdentityProvider.searchUsers (query : String) (max first : UInt32) :
    Searching (Result (List CanonicalUser)) :=
  Prog.send (SearchCall.searchUsers query max first)

namespace UserService

variable (mapper : IdentityMapper)

/-- The summary `UserService::search` makes of a match. -/
def summarize (u : CanonicalUser) : UnifiedUserSummary :=
  let mapped := mapper.mapSummaryOnly u
  { keycloakId := mapped.canonical.id
    username := mapped.canonical.username
    email := mapped.canonical.email
    enabled := mapped.canonical.enabled
    lifecycleState := deriveLifecycleState mapped.canonical.enabled
      mapped.canonical.requiredActions none
    inferredMatrixId := mapped.inferredMatrixId
    correlationStatus := mapped.correlationStatus }

/-- `UserService::search`. -/
def search (query : String) (max first : UInt32) :
    Searching (Result (List UnifiedUserSummary)) :=
  (IdentityProvider.searchUsers query max first).andThen fun users =>
    return .ok (users.map (summarize mapper))

end UserService

/-! ## `handlers/users.rs` -/

namespace Users

/-- `PAGE_SIZE`. -/
def pageSize : UInt32 := 25

/-- `SearchParams`. -/
structure SearchParams where
  q : Option String
  page : Option UInt32
  warning : Option String
deriving DecidableEq, Repr

/-- `SearchTemplate`. -/
structure SearchTemplate where
  username : String
  csrfToken : String
  currentPath : String
  query : String
  warning : Option String
  results : List UnifiedUserSummary
  page : UInt32
  totalPages : UInt32
deriving DecidableEq, Repr

/-- The product of two `u32`s: `none` is the panic of a build that checks for
overflow, and in a build that does not the product wraps around. -/
def mulU32 (overflowChecks : Bool) (a b : UInt32) : Option UInt32 :=
  if overflowChecks && decide (UInt32.size ≤ a.toNat * b.toNat) then none
  else some (a * b)

/-- `Ord::max`. -/
def maxU32 (a b : UInt32) : UInt32 := if b < a then a else b

/-- `u32::div_ceil`. -/
def divCeil (a b : UInt32) : UInt32 :=
  if 0 < a % b then a / b + 1 else a / b

section

variable (overflowChecks : Bool) (mapper : IdentityMapper) (admin : Admin)

/-- `handlers::users::search` up to the rendering of its page; `none` where it
panics. -/
def search (params : SearchParams) :
    Searching (Option (Result SearchTemplate)) :=
  let query := params.q.getD ""
  let page := maxU32 (params.page.getD 1) 1
  let shown (results : List UnifiedUserSummary) (totalPages : UInt32) :
      SearchTemplate :=
    { username := admin.username
      csrfToken := admin.csrfToken
      currentPath := "/users/search"
      query := query
      warning := params.warning
      results := results
      page := page
      totalPages := totalPages }
  if query = "" then
    return some (.ok (shown [] 1))
  else
    match mulU32 overflowChecks (page - 1) pageSize with
    | none => return none
    | some first => do
        let result ←
          (KeycloakIdentityProvider.countUsers query).andThen fun total =>
            let totalPages := maxU32 (divCeil total pageSize) 1
            (UserService.search mapper query pageSize first).andThen
              fun results => return .ok (shown results totalPages)
        return some result

end

end Users

end MatrixIdentityAdmin.Ref
