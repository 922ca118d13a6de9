import MatrixIdentityAdmin.Lib.Url
import MatrixIdentityAdmin.Ref.Models

/-!
# The URLs of `clients/`

Every method of the three clients that names a user, a session, a device, a
room or a group in the path of its URL, with the text it builds for it. That
text then goes to the URL parser of the HTTP client, which is code from
elsewhere, and so is the encoder some of the methods use.
-/

namespace MatrixIdentityAdmin.Ref

open MatrixIdentityAdmin.Lib

/-- `url::Url::parse`, and `utf8_percent_encode` with `NON_ALPHANUMERIC`. -/
structure UrlLibs where
  parse : String → Option Url.Target
  utf8PercentEncode : String → String

/-- What the clients read of their configurations for a URL. -/
structure ClientConfig where
  keycloakBaseUrl : String
  keycloakRealm : String
  masBaseUrl : String
  synapseBaseUrl : String
deriving DecidableEq, Repr

/-- The methods the clients use. -/
inductive Method where
  | get
  | post
  | put
  | delete
deriving DecidableEq, Repr

/-- A request as it is sent, its body and its headers left aside. -/
structure HttpRequest where
  method : Method
  url : String
deriving DecidableEq, Repr

/-- The requests of the clients, under the names of the methods that send
them. `set_power_level` reads before it writes, and `get_room_details` goes on
with the request of `get_space_children`. -/
inductive Endpoint where
  | getUser (userId : String)
  | getUserGroups (userId : String)
  | getUserRoles (userId : String)
  | logoutUser (userId : String)
  | sendInviteEmail (userId : String)
  | deleteUser (userId : String)
  | disableUser (userId : String)
  | enableUser (userId : String)
  | addUserToGroup (userId groupId : String)
  | assignRealmRoles (userId : String)
  | getUserByUsername (username : String)
  | finishSession (sessionId sessionType : String)
  | deactivateUser (masUserId : String)
  | reactivateUser (masUserId : String)
  | getMatrixUser (matrixId : String)
  | listDevices (matrixId : String)
  | deleteDevice (matrixId deviceId : String)
  | getJoinedRoomMembers (roomId : String)
  | forceJoinUser (roomId : String)
  | kickUserFromRoom (roomId : String)
  | getSpaceChildren (spaceId : String)
  | getRoomDetails (roomId : String)
  | getPowerLevels (roomId : String)
  | setPowerLevel (roomId : String)
deriving DecidableEq, Repr

section

variable (config : ClientConfig)

/-- `KeycloakClient::admin_url`. -/
def KeycloakClient.adminUrl (path : String) : String :=
  s!"{config.keycloakBaseUrl}/admin/realms/{config.keycloakRealm}{path}"

/-- `MasClient::url`. -/
def MasClient.url (path : String) : String := s!"{config.masBaseUrl}{path}"

/-- `SynapseClient::url`. -/
def SynapseClient.url (path : String) : String := s!"{config.synapseBaseUrl}{path}"

end

/-- The path `finish_session` chooses. -/
def MasClient.finishPath (sessionId sessionType : String) :
    Except AppError String :=
  if sessionType = "compat" then
    .ok s!"/api/admin/v1/compat-sessions/{sessionId}/finish"
  else if sessionType = "oauth2" then
    .ok s!"/api/admin/v1/oauth2-sessions/{sessionId}/finish"
  else .error (.validation s!"Unknown MAS session type: {sessionType}")

/-- The request a method sends, if it comes to that. -/
def Endpoint.request (libs : UrlLibs) (config : ClientConfig) :
    Endpoint → Except AppError HttpRequest :=
  let keycloak (method : Method) (path : String) : Except AppError HttpRequest :=
    .ok ⟨method, KeycloakClient.adminUrl config path⟩
  let mas (method : Method) (path : String) : Except AppError HttpRequest :=
    .ok ⟨method, MasClient.url config path⟩
  let synapse (method : Method) (path : String) : Except AppError HttpRequest :=
    .ok ⟨method, SynapseClient.url config path⟩
  let urlencoded := libs.utf8PercentEncode
  fun
  | .getUser userId => keycloak .get s!"/users/{userId}"
  | .getUserGroups userId => keycloak .get s!"/users/{userId}/groups"
  | .getUserRoles userId => keycloak .get s!"/users/{userId}/role-mappings/realm"
  | .logoutUser userId => keycloak .post s!"/users/{userId}/logout"
  | .sendInviteEmail userId =>
      keycloak .put s!"/users/{userId}/execute-actions-email"
  | .deleteUser userId => keycloak .delete s!"/users/{userId}"
  | .disableUser userId => keycloak .put s!"/users/{userId}"
  | .enableUser userId => keycloak .put s!"/users/{userId}"
  | .addUserToGroup userId groupId =>
      keycloak .put s!"/users/{userId}/groups/{groupId}"
  | .assignRealmRoles userId =>
      keycloak .post s!"/users/{userId}/role-mappings/realm"
  | .getUserByUsername username =>
      mas .get s!"/api/admin/v1/users/by-username/{urlencoded username}"
  | .finishSession sessionId sessionType =>
      match MasClient.finishPath sessionId sessionType with
      | .ok path => mas .post path
      | .error e => .error e
  | .deactivateUser masUserId =>
      mas .post s!"/api/admin/v1/users/{masUserId}/deactivate"
  | .reactivateUser masUserId =>
      mas .post s!"/api/admin/v1/users/{masUserId}/reactivate"
  | .getMatrixUser matrixId =>
      synapse .get s!"/_synapse/admin/v2/users/{urlencoded matrixId}"
  | .listDevices matrixId =>
      synapse .get s!"/_synapse/admin/v2/users/{urlencoded matrixId}/devices"
  | .deleteDevice matrixId deviceId =>
      synapse .delete
        s!"/_synapse/admin/v2/users/{urlencoded matrixId}/devices/{deviceId}"
  | .getJoinedRoomMembers roomId =>
      synapse .get s!"/_synapse/admin/v1/rooms/{urlencoded roomId}/members"
  | .forceJoinUser roomId =>
      synapse .post s!"/_synapse/admin/v1/join/{urlencoded roomId}"
  | .kickUserFromRoom roomId =>
      synapse .post s!"/_matrix/client/v3/rooms/{urlencoded roomId}/kick"
  | .getSpaceChildren spaceId =>
      synapse .get s!"/_synapse/admin/v1/rooms/{urlencoded spaceId}/state"
  | .getRoomDetails roomId =>
      synapse .get s!"/_synapse/admin/v1/rooms/{urlencoded roomId}"
  | .getPowerLevels roomId =>
      synapse .get
        s!"/_matrix/client/v3/rooms/{urlencoded roomId}/state/m.room.power_levels"
  | .setPowerLevel roomId =>
      synapse .put
        s!"/_matrix/client/v3/rooms/{urlencoded roomId}/state/m.room.power_levels"

end MatrixIdentityAdmin.Ref
