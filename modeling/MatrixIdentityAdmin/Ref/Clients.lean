import MatrixIdentityAdmin.Lib.Layers
import MatrixIdentityAdmin.Ref.MasClient
import MatrixIdentityAdmin.Ref.PowerLevels
import MatrixIdentityAdmin.Ref.Session
import MatrixIdentityAdmin.Ref.Token

/-!
# The methods of `clients/`

One level below the calls of `Ref/Calls.lean`: what each method of the three
clients sends, and what it makes of the response. Keycloak's requests go through
`send_admin_request` of `Ref/Token.lean`, with its token, its mutex and its one
more try after a 401; MAS has the token without the second try, and Synapse a
token from the configuration.

The session methods of MAS are those of `Ref/MasClient.lean`, with their exchanges
made of requests. The audit log and the policy are no clients; their calls are left
as they are.
-/

namespace MatrixIdentityAdmin.Ref

open MatrixIdentityAdmin.Lib
open KeycloakClient (Response TokenCall)

/-- The libraries below the clients: the URLs, `serde_json` for the body of a
response, and the names of the status codes. -/
structure HttpLibs extends UrlLibs where
  fromStr : String → Option Value
  canonicalReason : UInt16 → Option String

/-- A `RequestBuilder`, but for the token: `.query(..)` and `.json(..)`. -/
structure Outgoing where
  request : HttpRequest
  query : List (String × String)
  json : Option Value

/-- What the clients ask of the outside. `admin_token` is the same code in both
clients that have it, so that its steps are the same here; where the client of MAS
asks for a token before it knows what to send, they stand by themselves. Which of
two requests that are awaited together is ahead is asked of the outside too. -/
inductive WireCall where
  | keycloak (out : Outgoing) (c : TokenCall)
  | mas (out : Outgoing) (c : TokenCall)
  | masToken (c : TokenCall)
  | synapse (out : Outgoing)
  | schedule
  | direct (c : Call)

abbrev WireCall.Answer : WireCall → Type
  | .keycloak _ c | .mas _ c | .masToken c => c.Answer
  | .synapse _ => Except AppError Response
  | .schedule => List Bool
  | .direct c => Ref.Answer c

abbrev Wire (α : Type) : Type := Prog WireCall WireCall.Answer α

/-! ## `Deserialize` -/

namespace Value

/-- A field of type `bool`. -/
def readBool : Option Value → Option Bool
  | some (.bool b) => some b
  | _ => none

/-- A field of type `Option<i64>`. -/
def readOptionI64 : Option Value → Option (Option Int)
  | none | some .null => some none
  | some (.number n) =>
      if Int64.minValue.toInt ≤ n ∧ n ≤ Int64.maxValue.toInt then some (some n) else none
  | _ => none

/-- A field of type `Vec<String>` with `#[serde(default)]`. -/
def readStringsOrDefault : Option Value → Option (List String)
  | none => some []
  | v => readStrings v

/-- `Vec<T>`. -/
def readList {α : Type} (fromValue : Value → Option α) (v : Value) : Option (List α) :=
  v.asArray.bind fun items => items.mapM fromValue

/-- `u32`. -/
def readU32 : Value → Option UInt32
  | .number n => if 0 ≤ n ∧ n < UInt32.size then some n.toNat.toUInt32 else none
  | _ => none

end Value

open Value

/-- `#[derive(Deserialize)] KeycloakUser`. -/
def KeycloakUser.fromValue (v : Value) : Option KeycloakUser :=
  match v.structFields ["id", "username", "email", "firstName", "lastName", "enabled",
      "emailVerified", "createdTimestamp", "requiredActions"] with
  | some [id, username, email, firstName, lastName, enabled, emailVerified,
      createdTimestamp, requiredActions] => do
      let id ← readString id
      let username ← readString username
      let _ ← readOption email
      let _ ← readOption firstName
      let _ ← readOption lastName
      let enabled ← readBool enabled
      let _ ← readBool emailVerified
      let _ ← readOptionI64 createdTimestamp
      let _ ← readStringsOrDefault requiredActions
      return ⟨id, username, enabled⟩
  | _ => none

/-- `#[derive(Deserialize)] KeycloakGroup`. -/
def KeycloakGroup.fromValue (v : Value) : Option KeycloakGroup :=
  match v.structFields ["id", "name", "path"] with
  | some [id, name, path] => do
      let id ← readString id
      let name ← readString name
      let path ← readString path
      return ⟨id, name, path⟩
  | _ => none

/-- `#[derive(Deserialize)] KeycloakRole`. -/
def KeycloakRole.fromValue (v : Value) : Option KeycloakRole :=
  match v.structFields ["id", "name", "composite", "clientRole", "containerId"] with
  | some [id, name, composite, clientRole, containerId] => do
      let id ← readString id
      let name ← readString name
      let _ ← readBool composite
      let _ ← readBool clientRole
      let _ ← readOption containerId
      return ⟨id, name⟩
  | _ => none

namespace MasClient

/-- `ApiUserAttributes`. -/
structure ApiUserAttributes where
  username : String
  deactivatedAt : Option String
deriving DecidableEq, Repr

def ApiUserAttributes.fromValue (v : Value) : Option ApiUserAttributes :=
  match v.structFields ["username", "deactivated_at"] with
  | some [username, deactivatedAt] => do
      let username ← readString username
      let deactivatedAt ← readOption deactivatedAt
      return ⟨username, deactivatedAt⟩
  | _ => none

/-- `ApiUserResource`. -/
structure ApiUserResource where
  id : String
  attributes : ApiUserAttributes
deriving DecidableEq, Repr

def ApiUserResource.fromValue (v : Value) : Option ApiUserResource :=
  match v.structFields ["id", "attributes"] with
  | some [id, attributes] => do
      let id ← readString id
      let attributes ← attributes.bind ApiUserAttributes.fromValue
      return ⟨id, attributes⟩
  | _ => none

/-- `ApiSingleResponse<T>`, of which there is only `data`. -/
def singleResponse {α : Type} (fromValue : Value → Option α) (v : Value) : Option α :=
  match v.structFields ["data"] with
  | some [data] => data.bind fromValue
  | _ => none

def ApiSessionAttributes.fromValue (v : Value) : Option ApiSessionAttributes :=
  match v.structFields ["created_at", "last_active_at", "user_agent", "last_active_ip",
      "finished_at"] with
  | some [createdAt, lastActiveAt, userAgent, lastActiveIp, finishedAt] => do
      let _ ← readOption createdAt
      let _ ← readOption lastActiveAt
      let _ ← readOption userAgent
      let _ ← readOption lastActiveIp
      let finishedAt ← readOption finishedAt
      return ⟨finishedAt⟩
  | _ => none

def ApiSessionResource.fromValue (v : Value) : Option ApiSessionResource :=
  match v.structFields ["id", "type", "attributes"] with
  | some [id, resourceType, attributes] => do
      let id ← readString id
      let resourceType ← readString resourceType
      let attributes ← attributes.bind ApiSessionAttributes.fromValue
      return ⟨id, resourceType, attributes⟩
  | _ => none

/-- `ApiListResponse<T>`, of which there is only `data`. -/
def listResponse {α : Type} (fromValue : Value → Option α) (v : Value) :
    Option (List α) :=
  match v.structFields ["data"] with
  | some [data] => data.bind (readList fromValue)
  | _ => none

/-- The `MasUser` of a response. -/
def toUser (data : ApiUserResource) : MasUser where
  id := data.id
  username := data.attributes.username
  deactivatedAt := data.attributes.deactivatedAt

end MasClient

namespace SynapseClient

/-- `MembersResponse`, of which there is only `members`. -/
def membersResponse (v : Value) : Option (List String) :=
  match v.structFields ["members"] with
  | some [members] => readStrings members
  | _ => none

/-- `StateEvent`. -/
structure StateEvent where
  eventType : String
  stateKey : String
  content : Value

def StateEvent.fromValue (v : Value) : Option StateEvent :=
  match v.structFields ["type", "state_key", "content"] with
  | some [eventType, stateKey, content] => do
      let eventType ← readString eventType
      let stateKey ← readString stateKey
      let content ← content
      return ⟨eventType, stateKey, content⟩
  | _ => none

/-- `StateResponse`, of which there is only `state`. -/
def stateResponse (v : Value) : Option (List StateEvent) :=
  match v.structFields ["state"] with
  | some [state] => state.bind (readList StateEvent.fromValue)
  | _ => none

/-- `as_object().is_some_and(|o| !o.is_empty())`. -/
def nonEmptyObject : Value → Bool
  | .object members => !members.isEmpty
  | _ => false

/-- The children among the state events of a room. -/
def children (state : List StateEvent) : List String :=
  (state.filter fun e => e.eventType = "m.space.child" && e.stateKey ≠ "" &&
    nonEmptyObject e.content).map StateEvent.stateKey

end SynapseClient

/-! ## Responses -/

section

variable (libs : HttpLibs) (service : String)

/-- `error::upstream_error`, of an error with a status or without. -/
def upstreamError (status : Option UInt16) : AppError :=
  .upstream service <| match status with
    | some s =>
        let reason := (libs.canonicalReason s).getD "<unknown status code>"
        s!"HTTP {s} {reason}"
    | none => "request failed"

/-- `Response::error_for_status`, with its error. -/
def errorForStatus (resp : Response) : Result Response :=
  if 400 ≤ resp.status ∧ resp.status < 600 then
    .error (upstreamError libs service (some resp.status))
  else .ok resp

/-- `Response::json`, with its error. -/
def jsonBody {α : Type} (fromValue : Value → Option α) (resp : Response) : Result α :=
  match (libs.fromStr resp.body).bind fromValue with
  | some a => .ok a
  | none => .error (upstreamError libs service none)

/-- `.error_for_status()?.json().await?`. -/
def readJson {α : Type} (fromValue : Value → Option α) (resp : Response) : Result α :=
  (errorForStatus libs service resp).bind (jsonBody libs service fromValue)

/-- `.error_for_status()?` where the body does not matter. -/
def readStatus (resp : Response) : Result Unit :=
  (errorForStatus libs service resp).map fun _ => ()

end

/-! ## `KeycloakClient` -/

namespace KeycloakClient

variable (libs : HttpLibs) (config : ClientConfig)

def send (out : Outgoing) : Wire (Result Response) :=
  sendAdminRequest.lift (WireCall.keycloak out)

/-- A `GET` for a document. -/
def getJson {α : Type} (path : String) (query : List (String × String))
    (fromValue : Value → Option α) : Wire (Result α) :=
  (send ⟨⟨.get, adminUrl config path⟩, query, none⟩).andThen fun resp =>
    return readJson libs "keycloak" fromValue resp

/-- A request for something to be done. -/
def order (method : Method) (path : String) (json : Option Value) : Wire (Result Unit) :=
  (send ⟨⟨method, adminUrl config path⟩, [], json⟩).andThen fun resp =>
    return readStatus libs "keycloak" resp

/-- `search_users`. -/
def searchUsers (query : String) (max first : UInt32) : Wire (Result (List KeycloakUser)) :=
  getJson libs config "/users"
    [("search", query), ("max", toString max), ("first", toString first)]
    (readList KeycloakUser.fromValue)

/-- `count_users`. -/
def countUsers (query : String) : Wire (Result UInt32) :=
  getJson libs config "/users/count" (if query = "" then [] else [("search", query)])
    readU32

/-- `get_user`. -/
def getUser (userId : String) : Wire (Result KeycloakUser) :=
  getJson libs config s!"/users/{userId}" [] KeycloakUser.fromValue

/-- `get_user_groups`. -/
def getUserGroups (userId : String) : Wire (Result (List KeycloakGroup)) :=
  getJson libs config s!"/users/{userId}/groups" [] (readList KeycloakGroup.fromValue)

/-- `get_user_roles`. -/
def getUserRoles (userId : String) : Wire (Result (List KeycloakRole)) :=
  getJson libs config s!"/users/{userId}/role-mappings/realm" []
    (readList KeycloakRole.fromValue)

/-- `logout_user`. -/
def logoutUser (userId : String) : Wire (Result Unit) :=
  order libs config .post s!"/users/{userId}/logout" none

/-- `delete_user`. -/
def deleteUser (userId : String) : Wire (Result Unit) :=
  order libs config .delete s!"/users/{userId}" none

/-- `DisableBody` and `EnableBody`. -/
def enabledBody (enabled : Bool) : Value := .object [("enabled", .bool enabled)]

/-- `disable_user`. -/
def disableUser (userId : String) : Wire (Result Unit) :=
  order libs config .put s!"/users/{userId}" (some (enabledBody false))

/-- `enable_user`. -/
def enableUser (userId : String) : Wire (Result Unit) :=
  order libs config .put s!"/users/{userId}" (some (enabledBody true))

/-- The methods, by their calls. -/
def carryOut : (c : KeycloakCall) → Wire (Result c.Ret)
  | .searchUsers query max first => searchUsers libs config query max first
  | .countUsers query => countUsers libs config query
  | .getUser userId => getUser libs config userId
  | .getUserGroups userId => getUserGroups libs config userId
  | .getUserRoles userId => getUserRoles libs config userId
  | .logoutUser userId => logoutUser libs config userId
  | .deleteUser userId => deleteUser libs config userId
  | .disableUser userId => disableUser libs config userId
  | .enableUser userId => enableUser libs config userId

end KeycloakClient

/-! ## `MasClient` -/

namespace MasClient

variable (libs : HttpLibs) (config : ClientConfig)

/-- A request with the token of `admin_token`. -/
def send (out : Outgoing) : Wire (Result Response) :=
  KeycloakClient.sendAdminRequestOnce.lift (WireCall.mas out)

/-- What `get_user_by_username` makes of a response. -/
def readUser (resp : Response) : Result (Option MasUser) :=
  if resp.status = 404 then .ok none
  else (readJson libs "mas" (singleResponse ApiUserResource.fromValue) resp).map
    fun data => some (toUser data)

/-- `get_user_by_username`. -/
def getUserByUsername (username : String) : Wire (Result (Option MasUser)) :=
  let encoded := libs.utf8PercentEncode username
  (send ⟨⟨.get, url config s!"/api/admin/v1/users/by-username/{encoded}"⟩, [],
    none⟩).andThen fun resp => return readUser libs resp

def order (path : String) : Wire (Result Unit) :=
  (send ⟨⟨.post, url config path⟩, [], none⟩).andThen fun resp =>
    return readStatus libs "mas" resp

/-- `deactivate_user`. -/
def deactivateUser (masUserId : String) : Wire (Result Unit) :=
  order libs config s!"/api/admin/v1/users/{masUserId}/deactivate"

/-- `reactivate_user`. -/
def reactivateUser (masUserId : String) : Wire (Result Unit) :=
  order libs config s!"/api/admin/v1/users/{masUserId}/reactivate"

/-- A request with a token that was asked for before. -/
def request (token : String) (out : Outgoing) : Wire (Result Response) :=
  Prog.lift (WireCall.mas out) do
    KeycloakClient.call (.send token)
    KeycloakClient.call .response

/-- The exchanges of the session methods. -/
def exchange : (c : HttpCall) → Wire (HttpAnswer c)
  | .adminToken => KeycloakClient.adminToken.lift WireCall.masToken
  | .getSessions url token query =>
      (request token ⟨⟨.get, url⟩, query, none⟩).andThen fun resp =>
        return readJson libs "mas" (listResponse ApiSessionResource.fromValue) resp
  | .post url token =>
      (request token ⟨⟨.post, url⟩, [], none⟩).andThen fun resp =>
        return readStatus libs "mas" resp

/-- `list_sessions`. -/
def listSessions (masUserId : String) : Wire (Result SessionListResult) := do
  let schedule ← Prog.send WireCall.schedule
  let (compatResult, oauth2Result) ← Prog.both schedule
    ((fetchSessions config "compat-sessions" masUserId).through (exchange libs))
    ((fetchSessions config "oauth2-sessions" masUserId).through (exchange libs))
  return .ok (listed compatResult oauth2Result)

/-- The methods, by their calls. -/
def carryOut : (c : AuthCall) → Wire (Result c.Ret)
  | .getUserByUsername username => getUserByUsername libs config username
  | .listSessions masUserId => listSessions libs config masUserId
  | .finishSession sessionId sessionType =>
      (finishSession config sessionId sessionType).through (exchange libs)
  | .deactivateUser masUserId => deactivateUser libs config masUserId
  | .reactivateUser masUserId => reactivateUser libs config masUserId

end MasClient

/-! ## `SynapseClient` -/

namespace SynapseClient

variable (libs : HttpLibs) (config : ClientConfig)

def send (out : Outgoing) : Wire (Result Response) := Prog.send (WireCall.synapse out)

def getJson {α : Type} (path : String) (fromValue : Value → Option α) :
    Wire (Result α) :=
  (send ⟨⟨.get, url config path⟩, [], none⟩).andThen fun resp =>
    return readJson libs "synapse" fromValue resp

def order (method : Method) (path : String) (json : Value) : Wire (Result Unit) :=
  (send ⟨⟨method, url config path⟩, [], some json⟩).andThen fun resp =>
    return readStatus libs "synapse" resp

/-- `get_joined_room_members`. -/
def getJoinedRoomMembers (roomId : String) : Wire (Result (List String)) :=
  let encoded := libs.utf8PercentEncode roomId
  getJson libs config s!"/_synapse/admin/v1/rooms/{encoded}/members" membersResponse

/-- `force_join_user`. -/
def forceJoinUser (userId roomId : String) : Wire (Result Unit) :=
  let encoded := libs.utf8PercentEncode roomId
  order libs config .post s!"/_synapse/admin/v1/join/{encoded}"
    (.object [("user_id", .string userId)])

/-- `kick_user_from_room`. -/
def kickUserFromRoom (userId roomId reason : String) : Wire (Result Unit) :=
  let encoded := libs.utf8PercentEncode roomId
  order libs config .post s!"/_matrix/client/v3/rooms/{encoded}/kick"
    (.object [("user_id", .string userId), ("reason", .string reason)])

/-- `get_space_children`. -/
def getSpaceChildren (spaceId : String) : Wire (Result (List String)) :=
  let encoded := libs.utf8PercentEncode spaceId
  getJson libs config s!"/_synapse/admin/v1/rooms/{encoded}/state"
    fun v => (stateResponse v).map children

/-- The two requests of `set_power_level`. -/
def powerLevels : (c : StateCall) → Wire c.Answer
  | .getState roomId =>
      let encoded := libs.utf8PercentEncode roomId
      getJson libs config
        s!"/_matrix/client/v3/rooms/{encoded}/state/m.room.power_levels" some
  | .putState roomId content =>
      let encoded := libs.utf8PercentEncode roomId
      order libs config .put
        s!"/_matrix/client/v3/rooms/{encoded}/state/m.room.power_levels" content

/-- The methods, by their calls. -/
def carryOut : (c : MatrixCall) → Wire (Result c.Ret)
  | .getJoinedRoomMembers roomId => getJoinedRoomMembers libs config roomId
  | .forceJoinUser userId roomId => forceJoinUser libs config userId roomId
  | .kickUserFromRoom userId roomId reason =>
      kickUserFromRoom libs config userId roomId reason
  | .getSpaceChildren spaceId => getSpaceChildren libs config spaceId
  | .setPowerLevel roomId userId level =>
      (setPowerLevel roomId userId level).through (powerLevels libs config)

end SynapseClient

/-- How the service carries out its calls. -/
def carryOut (libs : HttpLibs) (config : ClientConfig) : (c : Call) → Wire (Answer c)
  | .keycloak c => KeycloakClient.carryOut libs config c
  | .mas c => MasClient.carryOut libs config c
  | .synapse c => SynapseClient.carryOut libs config c
  | .audit entry => Prog.send (WireCall.direct (.audit entry))
  | .policy c => Prog.send (WireCall.direct (.policy c))

end MatrixIdentityAdmin.Ref
