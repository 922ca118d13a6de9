import MatrixIdentityAdmin.Ref.Lifecycle
import MatrixIdentityAdmin.Ref.MasClient
import MatrixIdentityAdmin.Spec.Endpoints

/-!
# What MAS has, and what the client makes of it

MAS keeps two families of sessions, each with a list endpoint of its own. A list
is served a page at a time; the page is the first one unless the query asks for
another, and how long it may be is in the query.

`CompleteOrSaysSo` is what a listing is for: everything there is, or a warning
about what is missing. `FinishedWhereListed` is what the type of a listed session
is for: to send its end to the family it came from.
-/

namespace MatrixIdentityAdmin.Ref

open MatrixIdentityAdmin.Lib

namespace MasClient

/-- The two families of sessions. -/
inductive Family where
  | compat
  | oauth2
deriving DecidableEq, Repr

namespace Family

def endpoint : Family → String
  | .compat => "compat-sessions"
  | .oauth2 => "oauth2-sessions"

/-- The session type `finish_session` knows the family by. -/
def tag : Family → String
  | .compat => "compat"
  | .oauth2 => "oauth2"

def listUrl (config : ClientConfig) (f : Family) : String :=
  url config s!"/api/admin/v1/{f.endpoint}"

def finishUrl (config : ClientConfig) (f : Family) (sessionId : String) : String :=
  url config s!"/api/admin/v1/{f.endpoint}/{sessionId}/finish"

/-- One of two values, by the family. -/
def pick {α : Type} (compat oauth2 : α) : Family → α
  | .compat => compat
  | .oauth2 => oauth2

end Family

/-! ## The sessions there are -/

/-- The active sessions of every user, in the order of the lists. -/
structure ActiveSessions where
  of : Family → String → List ApiSessionResource
  active : ∀ f user, ∀ r ∈ of f user, r.attributes.finishedAt = none

def readNat (s : String) : Nat :=
  s.toList.foldl (fun n d => 10 * n + (d.toNat - 48)) 0

/-- A list is answered with its first page, of the length the query allows; any
exchange may fail. -/
def ActiveSessions.env (m : ActiveSessions) (config : ClientConfig) :
    Env HttpCall HttpAnswer Unit where
  pre _ _ := True
  step _ c x _ :=
    match c, x with
    | .getSessions url _ query, .ok data =>
        ∀ f user first, url = Family.listUrl config f →
          query = [("filter[user]", user), ("filter[status]", "active"),
            ("page[first]", first)] →
          data = (m.of f user).take (readNat first)
    | _, _ => True

/-! ## Complete, or said so -/

/-- The warning about a family whose list could not be had. -/
def missing : Family → AppError → String
  | .compat, e => s!"Failed to fetch compat sessions: {e}"
  | .oauth2, e => s!"Failed to fetch OAuth2 sessions: {e}"

def sessionsOf (m : ActiveSessions) (user : String) (f : Family) :
    Result (List MasSession) → List MasSession
  | .ok _ => (m.of f user).map toSession
  | .error _ => []

def warningsOf (f : Family) : Result (List MasSession) → List String
  | .ok _ => []
  | .error e => [missing f e]

/-- Every session of the families whose fetch ended well, each once, and one
warning for each of the others. -/
structure CompleteOrSaysSo (m : ActiveSessions) (user : String)
    (compat oauth2 : Result (List MasSession)) (l : SessionListResult) : Prop where
  sessions : l.sessions.Perm
    (sessionsOf m user .compat compat ++ sessionsOf m user .oauth2 oauth2)
  warnings : l.warnings = warningsOf .compat compat ++ warningsOf .oauth2 oauth2

/-- The family fits on a page of fifty, if its fetch ended well. -/
def Fits (m : ActiveSessions) (user : String) (f : Family)
    (r : Result (List MasSession)) : Prop :=
  r.isOk = true → (m.of f user).length ≤ 50

/-- A listing MAS may have been answered with. -/
def ActiveSessions.Lists (m : ActiveSessions) (config : ClientConfig)
    (user : String) (l : SessionListResult) : Prop :=
  ∃ t compat oauth2, ListSessions config user t compat oauth2 (.ok l) ∧
    (m.env config).Path () t ()

/-! ## Finished where listed -/

/-- The session is finished by one `POST`, which goes to the family it was
listed by, under its own id. -/
structure FinishedWhereListed {config : ClientConfig} (sites : Sites config)
    (libs : UrlLibs) (f : Family) (s : MasSession) : Prop where
  posts : ∀ t r token, (finishSession config s.id s.sessionType).Runs t r →
    ⟨.adminToken, .ok token⟩ ∈ t →
    t = [⟨.adminToken, .ok token⟩, ⟨.post (f.finishUrl config s.id) token, r⟩]
  reaches : ∃ target, libs.parse (f.finishUrl config s.id) = some target ∧
    target.Addresses ((sites.mas.path ++
      ["api", "admin", "v1", f.endpoint, s.id, "finish"]).map
        fun part => Url.utf8 part.toList)

end MasClient

end MatrixIdentityAdmin.Ref
