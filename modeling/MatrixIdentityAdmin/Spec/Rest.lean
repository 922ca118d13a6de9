import MatrixIdentityAdmin.Ref.Clients
import MatrixIdentityAdmin.Spec.Endpoints
import MatrixIdentityAdmin.Spec.MasSessions
import MatrixIdentityAdmin.Spec.PowerLevels
import MatrixIdentityAdmin.Spec.UserParts

/-!
# The other end of the line

The servers of the three APIs, over the world of `Spec/World.lean`. A server
reads a request by its method, the segments of its path below the base of the
API, its query and its document, and `asks` says what the documentation of the
API has it mean. What is asked for is done, or fails, as that world allows, and
the response says how it went: a status of success and the document that was
asked for, or an error, or nothing at all where the connection breaks.

A request that is not below the base has gone astray. Nothing is known about it.

MAS keeps its sessions in two families, lists a family under a type of its choice and
ends a session at the endpoint of its family. What the types are is a parameter: the
client takes them for the names of the families.
-/

namespace MatrixIdentityAdmin.Ref

open MatrixIdentityAdmin.Lib
open KeycloakClient (Response)
open MasClient (Family ApiSessionResource)

/-- A request as it is read. -/
structure Incoming where
  method : Method
  segments : List String
  query : List (String × String)
  json : Option Value

namespace Incoming

def param (inc : Incoming) (key : String) : Option String := inc.query.lookup key

/-- A text of the document. -/
def text (inc : Incoming) (key : String) : Option String :=
  (inc.json.bind (Value.field key)).bind Value.asStr

end Incoming

/-- The request comes to the API at `base`, and is read as `inc` there. -/
structure Outgoing.ReadAs (libs : UrlLibs) (base : List String) (out : Outgoing)
    (inc : Incoming) : Prop where
  reaches : ∃ target, libs.parse out.request.url = some target ∧
    target.Addresses ((base ++ inc.segments).map fun s => Url.utf8 s.toList)
  method : inc.method = out.request.method
  query : inc.query = out.query
  json : inc.json = out.json

/-! ## What is asked for -/

/-- A parameter that is a number. -/
def readParam (text : Option String) : Option UInt32 := do
  let digits := (← text).toList
  let n := Nat.ofDigitChars 10 digits 0
  if digits ≠ [] ∧ digits.all Char.isDigit ∧ n < UInt32.size then some n.toUInt32
  else none

def Keycloak.asks (inc : Incoming) : Option KeycloakCall :=
  match inc.method, inc.segments with
  | .get, ["users"] => do
      let max ← readParam (inc.param "max")
      let first ← readParam (inc.param "first")
      return .searchUsers ((inc.param "search").getD "") max first
  | .get, ["users", "count"] => some (.countUsers ((inc.param "search").getD ""))
  | .get, ["users", id] => some (.getUser id)
  | .get, ["users", id, "groups"] => some (.getUserGroups id)
  | .get, ["users", id, "role-mappings", "realm"] => some (.getUserRoles id)
  | .post, ["users", id, "logout"] => some (.logoutUser id)
  | .delete, ["users", id] => some (.deleteUser id)
  | .put, ["users", id] =>
      match inc.json.bind (Value.field "enabled") with
      | some (.bool true) => some (.enableUser id)
      | some (.bool false) => some (.disableUser id)
      | _ => none
  | _, _ => none

/-- MAS is asked for a call, or for the first page of one of its lists of active
sessions. -/
inductive MasAsk where
  | call (c : AuthCall)
  | sessions (f : Family) (masUserId : String) (first : UInt32)

/-- The family with that endpoint. -/
def Mas.familyAt (endpoint : String) : Option Family :=
  [.compat, .oauth2].find? fun f => f.endpoint = endpoint

def Mas.asks (labels : Family → String) (inc : Incoming) : Option MasAsk :=
  match inc.method, inc.segments with
  | .get, ["api", "admin", "v1", "users", "by-username", username] =>
      some (.call (.getUserByUsername username))
  | .post, ["api", "admin", "v1", "users", id, "deactivate"] =>
      some (.call (.deactivateUser id))
  | .post, ["api", "admin", "v1", "users", id, "reactivate"] =>
      some (.call (.reactivateUser id))
  | .get, ["api", "admin", "v1", endpoint] => do
      let f ← familyAt endpoint
      let masUserId ← inc.param "filter[user]"
      let first ← readParam (inc.param "page[first]")
      if inc.param "filter[status]" = some "active" then
        some (.sessions f masUserId first)
      else none
  | .post, ["api", "admin", "v1", endpoint, id, "finish"] =>
      (familyAt endpoint).map fun f => .call (.finishSession id (labels f))
  | _, _ => none

/-- Synapse is asked for a call, or for one half of a change of power levels. -/
inductive SynapseAsk where
  | call (c : MatrixCall)
  | state (c : SynapseClient.StateCall)

def Synapse.asks (inc : Incoming) : Option SynapseAsk :=
  match inc.method, inc.segments with
  | .get, ["_synapse", "admin", "v1", "rooms", r, "members"] =>
      some (.call (.getJoinedRoomMembers r))
  | .get, ["_synapse", "admin", "v1", "rooms", r, "state"] =>
      some (.call (.getSpaceChildren r))
  | .post, ["_synapse", "admin", "v1", "join", r] =>
      (inc.text "user_id").map fun u => .call (.forceJoinUser u r)
  | .post, ["_matrix", "client", "v3", "rooms", r, "kick"] => do
      let u ← inc.text "user_id"
      return .call (.kickUserFromRoom u r ((inc.text "reason").getD ""))
  | .get, ["_matrix", "client", "v3", "rooms", r, "state", "m.room.power_levels"] =>
      some (.state (.getState r))
  | .put, ["_matrix", "client", "v3", "rooms", r, "state", "m.room.power_levels"] =>
      inc.json.map fun content => .state (.putState r content)
  | _, _ => none

/-! ## The documents -/

/-- The document is an object of that kind. -/
def ObjectOf {α : Type} (doc : List (String × Value) → α → Prop) (v : Value) (a : α) :
    Prop := ∃ members, v = .object members ∧ doc members a

/-- A list of documents, in order. -/
def ListOf {α : Type} (doc : Value → α → Prop) (v : Value) (l : List α) : Prop :=
  ∃ vs, v = .array vs ∧ List.Forall₂ doc vs l

/-- A member that may be missing. -/
def Optional (P : Value → Prop) : Option Value → Prop
  | none | some .null => True
  | some v => P v

def IsString (v : Value) : Prop := ∃ s, v = .string s

def IsI64 (v : Value) : Prop :=
  ∃ n, v = .number n ∧ Int64.minValue.toInt ≤ n ∧ n ≤ Int64.maxValue.toInt

def stringOrNull : Option String → Option Value → Prop
  | some s, v => v = some (.string s)
  | none, v => v = none ∨ v = some .null

/-- A user as Keycloak writes one. -/
structure UserRepresentation (members : List (String × Value)) (u : KeycloakUser) :
    Prop where
  keys : (members.map Prod.fst).Nodup
  id : Value.get "id" members = some (.string u.id)
  username : Value.get "username" members = some (.string u.username)
  enabled : Value.get "enabled" members = some (.bool u.enabled)
  email : Optional IsString (Value.get "email" members)
  firstName : Optional IsString (Value.get "firstName" members)
  lastName : Optional IsString (Value.get "lastName" members)
  emailVerified : ∃ b, Value.get "emailVerified" members = some (.bool b)
  createdTimestamp : Optional IsI64 (Value.get "createdTimestamp" members)
  requiredActions : Value.get "requiredActions" members = none ∨
    ∃ l : List String, Value.get "requiredActions" members = some (.array (l.map .string))

/-- A group as Keycloak writes one. -/
structure GroupRepresentation (members : List (String × Value)) (g : KeycloakGroup) :
    Prop where
  keys : (members.map Prod.fst).Nodup
  id : Value.get "id" members = some (.string g.id)
  name : Value.get "name" members = some (.string g.name)
  path : Value.get "path" members = some (.string g.path)

/-- A role as Keycloak writes one. -/
structure RoleRepresentation (members : List (String × Value)) (r : KeycloakRole) :
    Prop where
  keys : (members.map Prod.fst).Nodup
  id : Value.get "id" members = some (.string r.id)
  name : Value.get "name" members = some (.string r.name)
  composite : ∃ b, Value.get "composite" members = some (.bool b)
  clientRole : ∃ b, Value.get "clientRole" members = some (.bool b)
  containerId : Optional IsString (Value.get "containerId" members)

/-- A user of MAS, in the envelope of its API. -/
structure MasUserDocument (members : List (String × Value)) (u : MasUser) : Prop where
  keys : (members.map Prod.fst).Nodup
  data : ∃ resource, Value.get "data" members = some (.object resource) ∧
    (resource.map Prod.fst).Nodup ∧ Value.get "id" resource = some (.string u.id) ∧
    ∃ attributes, Value.get "attributes" resource = some (.object attributes) ∧
      (attributes.map Prod.fst).Nodup ∧
      Value.get "username" attributes = some (.string u.username) ∧
      stringOrNull u.deactivatedAt (Value.get "deactivated_at" attributes)

/-- A session of MAS, as it is listed. -/
structure SessionDocument (members : List (String × Value)) (r : ApiSessionResource) :
    Prop where
  keys : (members.map Prod.fst).Nodup
  id : Value.get "id" members = some (.string r.id)
  type : Value.get "type" members = some (.string r.resourceType)
  attributes : ∃ attributes, Value.get "attributes" members = some (.object attributes) ∧
    (attributes.map Prod.fst).Nodup ∧
    Optional IsString (Value.get "created_at" attributes) ∧
    Optional IsString (Value.get "last_active_at" attributes) ∧
    Optional IsString (Value.get "user_agent" attributes) ∧
    Optional IsString (Value.get "last_active_ip" attributes) ∧
    stringOrNull r.attributes.finishedAt (Value.get "finished_at" attributes)

/-- A page of a list, in the envelope of the API. -/
structure SessionsDocument (members : List (String × Value))
    (l : List ApiSessionResource) : Prop where
  keys : (members.map Prod.fst).Nodup
  data : ∃ v, Value.get "data" members = some v ∧ ListOf (ObjectOf SessionDocument) v l

/-- The members of a room as Synapse writes them. -/
structure MembersDocument (members : List (String × Value)) (l : List String) : Prop where
  keys : (members.map Prod.fst).Nodup
  members : Value.get "members" members = some (.array (l.map .string))

/-- An event of the state of a room. -/
structure StateEventDocument (members : List (String × Value))
    (e : SynapseClient.StateEvent) : Prop where
  keys : (members.map Prod.fst).Nodup
  type : Value.get "type" members = some (.string e.eventType)
  stateKey : Value.get "state_key" members = some (.string e.stateKey)
  content : Value.get "content" members = some e.content

/-- The state of a room, by the children it has. -/
structure StateDocument (members : List (String × Value)) (l : List String) : Prop where
  keys : (members.map Prod.fst).Nodup
  state : ∃ v events, Value.get "state" members = some v ∧
    ListOf (ObjectOf StateEventDocument) v events ∧
    SynapseClient.children events = l

/-! ## What a response means -/

section

variable (libs : HttpLibs) {α : Type}

def IsError (resp : Response) : Prop := 400 ≤ resp.status ∧ resp.status < 600

def IsSuccess (resp : Response) : Prop := 200 ≤ resp.status ∧ resp.status < 300

instance : DecidablePred IsError := fun _ => inferInstanceAs (Decidable (_ ∧ _))

instance : DecidablePred IsSuccess := fun _ => inferInstanceAs (Decidable (_ ∧ _))

/-- What was sent back instead of a response has this status. -/
def HasStatus (status : UInt16) (x : Except AppError Response) : Prop :=
  ∃ resp, x = .ok resp ∧ resp.status = status

/-- Nothing was done, or nothing that was asked for can be said. -/
def Declines (x : Except AppError Response) : Prop := ∀ resp, x = .ok resp → IsError resp

/-- It was done, or it was not said to be. -/
def MeansDone (x : Except AppError Response) : Result Unit → Prop
  | .ok () => ∃ resp, x = .ok resp ∧ IsSuccess resp
  | .error _ => Declines x

/-- Here is the document, or an error, or a part of a document. -/
def MeansJson (doc : Value → α → Prop) (x : Except AppError Response) :
    Result α → Prop
  | .ok a => ∃ resp v, x = .ok resp ∧ IsSuccess resp ∧
      libs.fromStr resp.body = some v ∧ doc v a
  | .error _ => ∀ resp, x = .ok resp → IsError resp ∨ libs.fromStr resp.body = none

/-- There is none, or here it is. -/
def MeansLookup (doc : Value → α → Prop) (x : Except AppError Response) :
    Result (Option α) → Prop
  | .ok none => HasStatus 404 x
  | .ok (some a) => MeansJson libs doc x (.ok a)
  | .error e => ¬ HasStatus 404 x ∧ MeansJson libs doc x (.error e)

def KeycloakCall.Means (x : Except AppError Response) :
    (c : KeycloakCall) → Result c.Ret → Prop
  | .searchUsers .. => MeansJson libs (ListOf (ObjectOf UserRepresentation)) x
  | .countUsers _ => MeansJson libs (fun v n => v = .number n.toNat) x
  | .getUser _ => MeansJson libs (ObjectOf UserRepresentation) x
  | .getUserGroups _ => MeansJson libs (ListOf (ObjectOf GroupRepresentation)) x
  | .getUserRoles _ => MeansJson libs (ListOf (ObjectOf RoleRepresentation)) x
  | .logoutUser _ | .deleteUser _ | .disableUser _ | .enableUser _ => MeansDone x

def AuthCall.Means (x : Except AppError Response) : (c : AuthCall) → Result c.Ret → Prop
  | .getUserByUsername _ => MeansLookup libs (ObjectOf MasUserDocument) x
  | .finishSession .. | .deactivateUser _ | .reactivateUser _ => MeansDone x
  | .listSessions _ => fun _ => False

def MatrixCall.Means (x : Except AppError Response) :
    (c : MatrixCall) → Result c.Ret → Prop
  | .getJoinedRoomMembers _ => MeansJson libs (ObjectOf MembersDocument) x
  | .getSpaceChildren _ => MeansJson libs (ObjectOf StateDocument) x
  | .forceJoinUser .. | .kickUserFromRoom .. => MeansDone x
  | .setPowerLevel .. => fun _ => False

end

/-! ## The servers -/

/-- The active sessions of a family. -/
def World.activeIn (w : World) (type masUserId : String) : List MasSession :=
  (w.active masUserId).filter fun s => s.sessionType = type

/-- The resource of a session. -/
def MasSession.resource (s : MasSession) : ApiSessionResource :=
  ⟨s.id, s.sessionType, ⟨s.finishedAt⟩⟩

/-- Every session is in one of the families, and no family of a user is longer than
the page the client asks for. -/
structure World.Paged (labels : Family → String) (w : World) : Prop where
  known : ∀ masUserId, ∀ s ∈ w.active masUserId, ∃ f, s.sessionType = labels f
  fits : ∀ masUserId f, (w.activeIn (labels f) masUserId).length ≤ 50

/-- Days on which a list is complete or says so, as long as every list fits on its
page. -/
abbrev World.pagedDay (labels : Family → String) : Env Call Answer World :=
  World.days fun w fault => w.Paged labels → fault.Loud

/-- The level of a user in a document. -/
def levelIn (userId : String) (v : Value) : Option Int :=
  match SynapseClient.levelOf userId v with
  | some (.number n) => some n
  | _ => none

/-- The world, and the documents Synapse keeps the power levels in. -/
structure Backend where
  world : World
  levels : String → Value
  settable : ∀ r, SynapseClient.Settable (levels r)
  power : ∀ r u, world.power r u = levelIn u (levels r)

namespace Backend

variable (libs : HttpLibs) (labels : Family → String) {config : ClientConfig}
  (sites : Sites config) (b : Backend)

/-- One call of the world, with the documents left alone. -/
def Does (c : Call) (y : Answer c) (b' : Backend) : Prop :=
  World.env.step b.world c y b'.world ∧ b'.levels = b.levels

/-- Who is turned away with a 401 has had nothing done. -/
def keycloak (inc : Incoming) (x : Except AppError Response) (b' : Backend) : Prop :=
  match Keycloak.asks inc with
  | some c => (∃ y, c.Means libs x y ∧ b.Does (.keycloak c) y b') ∧
      (HasStatus 401 x → b' = b)
  | none => Declines x ∧ b' = b

def mas (inc : Incoming) (x : Except AppError Response) (b' : Backend) : Prop :=
  match Mas.asks labels inc with
  | some (.call c) => ∃ y, c.Means libs x y ∧ b.Does (.mas c) y b'
  | some (.sessions f masUserId first) =>
      let page := (b.world.activeIn (labels f) masUserId).take first.toNat
      b' = b ∧ ∃ y, MeansJson libs (ObjectOf SessionsDocument) x y ∧
        (y = .ok (page.map MasSession.resource) ∨ ∃ e, y = .error e)
  | none => Declines x ∧ b' = b

/-- A document takes the place of the one before. -/
def Puts (r : String) (content : Value) (b' : Backend) : Prop :=
  b'.world = { b.world with power := b'.world.power } ∧
    b'.levels = Function.update b.levels r content

def synapse (inc : Incoming) (x : Except AppError Response) (b' : Backend) : Prop :=
  match Synapse.asks inc with
  | some (.call c) => ∃ y, c.Means libs x y ∧ b.Does (.synapse c) y b'
  | some (.state (.getState r)) =>
      b' = b ∧ ∃ y, MeansJson libs Eq x y ∧ (y = .ok (b.levels r) ∨ ∃ e, y = .error e)
  | some (.state (.putState r content)) =>
      ∃ y, MeansDone x y ∧
        (b.Puts r content b' ∨ b' = b ∧ ∃ e, y = .error e)
  | none => Declines x ∧ b' = b

def keycloakBase : List String :=
  sites.keycloak.path ++ ["admin", "realms", config.keycloakRealm]

/-- What can happen on the way of a request changes nothing but by the request:
the token, its mutex and the clock are no part of the world, and neither is the
schedule. -/
def step : (c : WireCall) → c.Answer → Backend → Prop
  | .keycloak out .response => fun x b' => ∀ inc,
      out.ReadAs libs.toUrlLibs (keycloakBase sites) inc → b.keycloak libs inc x b'
  | .mas out .response => fun x b' => ∀ inc,
      out.ReadAs libs.toUrlLibs sites.mas.path inc → b.mas libs labels inc x b'
  | .synapse out => fun x b' => ∀ inc,
      out.ReadAs libs.toUrlLibs sites.synapse.path inc → b.synapse libs inc x b'
  | .direct c => fun x b' => b.Does c x b'
  | .keycloak _ _ | .mas _ _ | .masToken _ | .schedule => fun _ b' => b' = b

def env : Env WireCall WireCall.Answer Backend where
  pre _ _ := True
  step := fun b => b.step libs labels sites

end Backend

/-! ## The ids -/

def KeycloakCall.endpoint : KeycloakCall → Option Endpoint
  | .searchUsers .. | .countUsers _ => none
  | .getUser id => some (.getUser id)
  | .getUserGroups id => some (.getUserGroups id)
  | .getUserRoles id => some (.getUserRoles id)
  | .logoutUser id => some (.logoutUser id)
  | .deleteUser id => some (.deleteUser id)
  | .disableUser id => some (.disableUser id)
  | .enableUser id => some (.enableUser id)

def AuthCall.endpoint : AuthCall → Option Endpoint
  | .getUserByUsername username => some (.getUserByUsername username)
  | .deactivateUser id => some (.deactivateUser id)
  | .reactivateUser id => some (.reactivateUser id)
  | .finishSession sessionId sessionType => some (.finishSession sessionId sessionType)
  | .listSessions _ => none

def MatrixCall.endpoint : MatrixCall → Option Endpoint
  | .getJoinedRoomMembers r => some (.getJoinedRoomMembers r)
  | .forceJoinUser _ r => some (.forceJoinUser r)
  | .kickUserFromRoom _ r _ => some (.kickUserFromRoom r)
  | .getSpaceChildren r => some (.getSpaceChildren r)
  | .setPowerLevel r _ _ => some (.setPowerLevel r)

/-- The endpoint with an id in its path that a call goes to. -/
def Call.endpoint : Call → Option Endpoint
  | .keycloak c => c.endpoint
  | .mas c => c.endpoint
  | .synapse c => c.endpoint
  | .audit _ | .policy _ => none

/-- The ids of the call are ones its client handles, and a session of a family that
the client knows by its type is one of that family. -/
structure Call.Arrives (labels : Family → String) (c : Call) : Prop where
  ids : ∀ e ∈ c.endpoint, e.Safe
  family : ∀ sessionId f, c = .mas (.finishSession sessionId (Family.tag f)) →
    labels f = f.tag

/-- Percent-encoding lets everything through but a dot segment. -/
def Undotted (id : String) : Prop := id ≠ "." ∧ id ≠ ".."

/-- An id that arrives even at the end of a URL. -/
def EndsSafely (id : String) : Prop := RawSafe id ∧ Url.trimEnd id.toList = id.toList

/-- The ids there are in the world arrive where they are sent, and a session that is
known by the type of a family is of that family. -/
structure World.Tidy (labels : Family → String) (w : World) : Prop where
  usernames : ∀ k n, w.Named k n → Undotted n
  accounts : ∀ k id, w.HasAccount k id → RawSafe id
  sessions : ∀ k id type, w.HasSession k id type → RawSafe id ∧
    ∀ f, type = Family.tag f → labels f = f.tag
  targets : ∀ b ∈ w.listed, Undotted b.target.roomId
  children : ∀ r, ∀ c ∈ w.children r, Undotted c

end MatrixIdentityAdmin.Ref
