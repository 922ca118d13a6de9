import MatrixIdentityAdmin.Ref.Invite
import MatrixIdentityAdmin.Ref.Policy

/-!
# `handlers/policy.rs`: the options of the form for a new binding

The fragments the page puts into the form, one option for each group or role of
the realm or for each cached room. An option for a group or a role carries the
name and nothing else, one for a room its id and a label.
-/

namespace MatrixIdentityAdmin.Ref

open MatrixIdentityAdmin.Lib

namespace PolicyHandlers

/-- `escape_html`. -/
def escapeHtml (value : String) : String :=
  let value := Text.replace value '&' "&amp;"
  let value := Text.replace value '<' "&lt;"
  let value := Text.replace value '>' "&gt;"
  let value := Text.replace value '"' "&quot;"
  Text.replace value (Char.ofNat 39) "&#39;"

/-- The option both fragments have for a name. -/
def subjectOption (name : String) : String :=
  let name := escapeHtml name
  "<option value=\"" ++ name ++ "\">" ++ name ++ "</option>"

/-- The fragment for a list that came back, or for none. -/
def optionsHtml (select failed : String) : Result (List String) → String
  | .ok names =>
      names.foldl (fun html name => html ++ subjectOption name)
        ("<option value=\"\">" ++ select ++ "</option>")
  | .error _ => "<option value=\"\" disabled>" ++ failed ++ "</option>"

/-- `handlers::policy::api_groups`. -/
def apiGroups : InviteUser.Async (Result String) := do
  let groups ← InviteUser.keycloak .listGroups
  return .ok (optionsHtml "Select a group…" "Failed to load groups — try again"
    (groups.map fun gs => gs.map fun g => g.name))

/-- `handlers::policy::api_roles`. -/
def apiRoles : InviteUser.Async (Result String) := do
  let roles ← InviteUser.keycloak .listRealmRoles
  return .ok (optionsHtml "Select a role…" "Failed to load roles — try again"
    (roles.map fun rs => rs.map fun r => r.name))

/-! ## The rooms -/

/-- `PolicyService::list_cached_rooms`. -/
inductive CacheCall where
  | listCachedRooms
deriving DecidableEq, Repr

abbrev CacheCall.Answer : CacheCall → Type
  | .listCachedRooms => Result (List CachedRoom)

/-- The label of a room. -/
def roomLabel (r : CachedRoom) : String :=
  let kind := if r.isSpace then "[Space]" else "[Room]"
  match r.name, r.canonicalAlias with
  | some name, some roomAlias => s!"{kind} {name} ({roomAlias})"
  | some name, none => s!"{kind} {name}"
  | none, some roomAlias => s!"{kind} {roomAlias}"
  | none, none => s!"{kind} {r.roomId}"

def roomOption (r : CachedRoom) : String :=
  let escapedRoomId := escapeHtml r.roomId
  let escapedLabel := escapeHtml (roomLabel r)
  "<option value=\"" ++ escapedRoomId ++ "\">" ++ escapedLabel ++ "</option>"

/-- `handlers::policy::api_rooms`. -/
def apiRooms : Prog CacheCall CacheCall.Answer (Result String) :=
  (Prog.send CacheCall.listCachedRooms).andThen fun rooms =>
    if rooms.isEmpty then
      return .ok "<option value=\"\" disabled>No rooms cached — click Refresh Rooms</option>"
    else
      return .ok (rooms.foldl (fun html r => html ++ roomOption r)
        "<option value=\"\">Select a room…</option>")

end PolicyHandlers

end MatrixIdentityAdmin.Ref
