import MatrixIdentityAdmin.Lib.Exec
import MatrixIdentityAdmin.Lib.Paging
import MatrixIdentityAdmin.Ref.Users

/-!
# The page a search shows

`Matches` is a realm as a search sees it: for every query the users found, in
one order that stays as it is. A page of the search is right when its number
is one of the pages there are and it holds the matches of that page and no
others.
-/

namespace MatrixIdentityAdmin.Ref

open MatrixIdentityAdmin.Lib

namespace Users

/-- What there is to find. The number of matches is one Keycloak can answer
with, as a `u32`. -/
structure Matches where
  found : String → List CanonicalUser
  countable : ∀ query, (found query).length < UInt32.size

namespace Matches

variable (m : Matches)

def serve : Unit → (c : SearchCall) → SearchAnswer c × Unit
  | _, .countUsers query => (.ok (m.found query).length.toUInt32, ())
  | _, .searchUsers query max first =>
      (.ok (Paging.slice max.toNat first.toNat (m.found query)), ())

/-- Every call is served, or it fails. -/
def env : Env SearchCall SearchAnswer Unit where
  pre _ _ := True
  step _ c x _ := x = (m.serve () c).1 ∨ ∃ e, x = .error e

/-- `max(1, ceil(total / 25))`, over the integers. -/
def pages (query : String) : Nat :=
  Paging.pageCount pageSize.toNat (m.found query).length

end Matches

namespace SearchParams

variable (params : SearchParams)

def query : String := params.q.getD ""

/-- The page asked for; there is no page 0. -/
def asked : UInt32 := maxU32 (params.page.getD 1) 1

end SearchParams

variable (m : Matches) (mapper : IdentityMapper) (admin : Admin)
  (params : SearchParams)

/-- The template names a page there is, and has been given the matches of that
page. -/
structure SearchTemplate.Right (tmpl : SearchTemplate) : Prop where
  page : tmpl.page = params.asked
  total : tmpl.totalPages.toNat = m.pages params.query
  first : 1 ≤ tmpl.page.toNat
  last : tmpl.page.toNat ≤ tmpl.totalPages.toNat
  results : tmpl.results = (Paging.slice pageSize.toNat
    ((tmpl.page.toNat - 1) * pageSize.toNat) (m.found params.query)).map
      (UserService.summarize mapper)

/-- However the service was built and whichever of its calls fail, the search
does not overflow, asks for exactly the matches of the page asked for, and
what it displays is right. -/
def ShowsItsPage : Prop :=
  ∀ overflowChecks t result s,
    (search overflowChecks mapper admin params).Runs t result →
    m.env.Path () t s →
    (∀ query max first, SearchCall.searchUsers query max first ∈ calls t →
      query = params.query ∧ max = pageSize ∧
        first.toNat = (params.asked.toNat - 1) * pageSize.toNat) ∧
    ∃ r, result = some r ∧ ∀ tmpl, r = .ok tmpl → tmpl.Right m mapper params

/-- The same search, for another page. -/
def onPage (params : SearchParams) (page : UInt32) : SearchParams :=
  { params with page := some page }

/-- The users on the page that is displayed when nothing fails. -/
def displayed (overflowChecks : Bool) : List UnifiedUserSummary :=
  match ((search overflowChecks mapper admin params).exec m.serve ()).value with
  | some (.ok tmpl) => tmpl.results
  | _ => []

end Users

end MatrixIdentityAdmin.Ref
