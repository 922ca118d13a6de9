import MatrixIdentityAdmin.Lib.FormEncoding
import MatrixIdentityAdmin.Ref.AccountHandlers

/-!
# Warnings that come through a redirect

What a workflow could not do is told to the admin on the next page, and gets
there in the query of a redirect. The page reads the query as a form; what it
finds under `warning` should be what the workflow had to say, or the beginning
of it and an ellipsis.
-/

namespace MatrixIdentityAdmin.Ref

open MatrixIdentityAdmin.Lib

/-- What `pct_encode` leaves as it is. -/
def unreserved (c : Char) : Bool :=
  c.isAlphanum || c = '-' || c = '_' || c = '.' || c = '~'

/-- What may be in a header: no control character but the tab. -/
def isHeaderChar (c : Char) : Bool :=
  decide (32 ≤ c.toNat ∧ c.toNat ≠ 127) || c = '\t'

/-- `HeaderValue::try_from`. A location it refuses is never sent. -/
def headerValue (s : String) : Option String :=
  if s.toList.all isHeaderChar then some s else none

/-- What the page finds under `warning` in the query of the location it was called
by. -/
def warningShown (location : String) : Option (List Char) :=
  (headerValue location).bind fun location =>
    Form.param "warning".toList (Form.query location.toList)

/-- The page shows the summary, or cuts it off and says so. -/
structure CarriesOver (summary location : String) : Prop where
  whole : Text.len (pctEncode summary) ≤ 400 → warningShown location = some summary.toList
  cut : 400 < Text.len (pctEncode summary) → ∃ shown, shown <+: summary.toList ∧
    warningShown location = some (shown ++ ['…'])

/-- The address of a page that is a path and no more, and can be sent. -/
structure Unmarked (page : String) : Prop where
  header : page.toList.all isHeaderChar = true
  question : '?' ∉ page.toList
  hash : '#' ∉ page.toList

/-- The address has a query already, and a `warning` in it. -/
def NamesWarning (page : String) : Prop :=
  ∃ value, ("warning".toList, value) ∈ Form.pairs (Form.query page.toList)

/-- The handlers that put the warnings of a workflow into a redirect. -/
inductive FlashHandler where
  | reconcile
  | disable
  | offboard
  | reactivate
  | delete

section

variable (state : AppState) (admin : Admin) (keycloakId csrf : String)

namespace FlashHandler

def run : FlashHandler → Async (Result String)
  | .reconcile => Ref.reconcile state admin keycloakId csrf
  | .disable => Ref.disable state admin keycloakId csrf
  | .offboard => Ref.offboard state admin keycloakId csrf
  | .reactivate => Ref.reactivate state admin keycloakId csrf
  | .delete => deleteUserHandler state admin keycloakId csrf

/-- The exchange is a run of the workflow behind the handler, with the lookups before
it, this is its outcome, and this the page the admin is sent to with it. -/
inductive Produced : FlashHandler → List Exchange → String → WorkflowOutcome → Prop where
  | reconcile {t : List Exchange} {outcome : WorkflowOutcome}
      (h : (reconcileUser state admin keycloakId csrf).Runs t (.ok outcome)) :
      Produced .reconcile t s!"/users/{keycloakId}" outcome
  | disable {t : List Exchange} {outcome : WorkflowOutcome}
      (h : (disableUser keycloakId admin.subject admin.username
        state.homeserverDomain).Runs t (.ok outcome)) :
      Produced .disable t s!"/users/{keycloakId}" outcome
  | offboard {t₁ t₂ : List Exchange} {bindings : List PolicyBinding}
      {outcome : WorkflowOutcome} (hbindings : listBindings.Runs t₁ (.ok bindings))
      (h : (offboardUser keycloakId admin.subject admin.username state.homeserverDomain
        state.synapse bindings).Runs t₂ (.ok outcome)) :
      Produced .offboard (t₁ ++ t₂) s!"/users/{keycloakId}" outcome
  | reactivate {t : List Exchange} {outcome : WorkflowOutcome}
      (h : (reactivateUser keycloakId admin.subject admin.username
        state.homeserverDomain).Runs t (.ok outcome)) :
      Produced .reactivate t s!"/users/{keycloakId}" outcome
  | deleted {t : List Exchange} {outcome : WorkflowOutcome}
      (h : (deleteUser keycloakId admin.subject admin.username
        state.homeserverDomain).Runs t (.ok (.deleted outcome))) :
      Produced .delete t "/users/search" outcome
  | partialFailure {t : List Exchange} {outcome : WorkflowOutcome}
      (h : (deleteUser keycloakId admin.subject admin.username
        state.homeserverDomain).Runs t (.ok (.partialFailure outcome))) :
      Produced .delete t s!"/users/{keycloakId}" outcome

/-- The redirect of a run that produced warnings is a page and the warnings. -/
def Redirects (h : FlashHandler) (t : List Exchange) (location : String) : Prop :=
  ∃ page outcome, Produced state admin keycloakId csrf h t page outcome ∧
    (outcome.hasWarnings = true → ∃ warning, truncatedWarning outcome = some warning ∧
      location = page ++ "?warning=" ++ warning)

end FlashHandler

end

end MatrixIdentityAdmin.Ref
