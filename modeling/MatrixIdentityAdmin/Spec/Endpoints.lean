import MatrixIdentityAdmin.Ref.Endpoints

/-!
# What a request is to reach

An endpoint is a list of segments, some fixed and some the ids they are about.
A request reaches it if the URL parser finds exactly these segments in its URL,
each id as one of them, and no query and no fragment.

`Endpoint.Safe` is the condition on the ids alone that turns out to say when
that is so.
-/

namespace MatrixIdentityAdmin.Ref

open MatrixIdentityAdmin.Lib

/-- An id that survives in a path as it is: it has no character that cuts the
path, splits it or is dropped from it, no escape, and it is no dot segment. -/
def RawSafe (id : String) : Prop :=
  (∀ c ∈ id.toList, Url.isOrdinary c = true) ∧
    Url.hasEscape id.toList = false ∧ id ≠ "." ∧ id ≠ ".."

instance (id : String) : Decidable (RawSafe id) :=
  have : Decidable (∀ c ∈ id.toList, Url.isOrdinary c = true) :=
    List.decidableBAll _ id.toList
  inferInstanceAs (Decidable (_ ∧ _ ∧ _))

/-- A base URL: an origin, and a path that is what it says. -/
structure Site where
  origin : String
  path : List String
  safe : ∀ s ∈ path, RawSafe s

def slashed (segments : List String) : String :=
  String.ofList (Url.join (segments.map String.toList))

def Site.url (site : Site) : String := site.origin ++ slashed site.path

/-- The configuration of clients that talk to three such sites. -/
structure Sites (config : ClientConfig) where
  keycloak : Site
  mas : Site
  synapse : Site
  keycloakUrl : config.keycloakBaseUrl = keycloak.url
  realm : RawSafe config.keycloakRealm
  masUrl : config.masBaseUrl = mas.url
  synapseUrl : config.synapseBaseUrl = synapse.url

/-- `NON_ALPHANUMERIC`, and what is not ASCII. -/
def nonAlphanumeric (c : Char) : Bool := !c.isAlphanum

/-- The libraries do what their documentation says: the encoder escapes all but
letters and digits, and the parser takes what follows an origin of a site apart
as the URL Standard has it. -/
structure UrlLibs.Documented (libs : UrlLibs) (site : Site) : Prop where
  encode : ∀ s, (libs.utf8PercentEncode s).toList =
    Url.percentEncode nonAlphanumeric s.toList
  parse : ∃ set, Url.Spares set ∧ ∀ text : String, text.toList.head? = some '/' →
    libs.parse (site.origin ++ text) = some (Url.parse set text.toList)

/-! ## The segments of an endpoint -/

/-- A segment of a path, and for an id whether the client encodes it. -/
inductive Part where
  | fixed (s : String)
  | id (s : String) (encoded : Bool)
deriving DecidableEq, Repr

namespace Part

def value : Part → String
  | .fixed s => s
  | .id s _ => s

/-- The id survives: as it is, or encoded, which does not help a dot segment. -/
def Safe : Part → Prop
  | .fixed _ => True
  | .id s true => s ≠ "." ∧ s ≠ ".."
  | .id s false => RawSafe s

/-- The id does not end in what the parser trims off the end of a URL. -/
def EndSafe : Part → Prop
  | .fixed _ => True
  | .id _ true => True
  | .id s false => Url.trimEnd s.toList = s.toList

instance : DecidablePred Safe
  | .fixed _ => inferInstanceAs (Decidable True)
  | .id s true => inferInstanceAs (Decidable (s ≠ "." ∧ s ≠ ".."))
  | .id s false => inferInstanceAs (Decidable (RawSafe s))

instance : DecidablePred EndSafe
  | .fixed _ | .id _ true => inferInstanceAs (Decidable True)
  | .id s false => inferInstanceAs (Decidable (Url.trimEnd s.toList = s.toList))

end Part

def SafeParts : List Part → Prop
  | [] => True
  | [p] => p.Safe ∧ p.EndSafe
  | p :: q :: ps => p.Safe ∧ SafeParts (q :: ps)

def SafeParts.decide : (ps : List Part) → Decidable (SafeParts ps)
  | [] => inferInstanceAs (Decidable True)
  | [p] => inferInstanceAs (Decidable (p.Safe ∧ p.EndSafe))
  | p :: q :: ps =>
      have := SafeParts.decide (q :: ps)
      inferInstanceAs (Decidable (p.Safe ∧ SafeParts (q :: ps)))

instance : DecidablePred SafeParts := SafeParts.decide

/-- Whom a request goes to. -/
inductive Service where
  | keycloak
  | mas
  | synapse
deriving DecidableEq, Repr

namespace Endpoint

def service : Endpoint → Service
  | .getUser _ | .getUserGroups _ | .getUserRoles _ | .logoutUser _
  | .sendInviteEmail _ | .deleteUser _ | .disableUser _ | .enableUser _
  | .addUserToGroup .. | .assignRealmRoles _ => .keycloak
  | .getUserByUsername _ | .finishSession .. | .deactivateUser _
  | .reactivateUser _ => .mas
  | .getMatrixUser _ | .listDevices _ | .deleteDevice ..
  | .getJoinedRoomMembers _ | .forceJoinUser _ | .kickUserFromRoom _
  | .getSpaceChildren _ | .getRoomDetails _ | .getPowerLevels _
  | .setPowerLevel _ => .synapse

/-- The segments below the site, and for Keycloak below the realm. -/
def parts : Endpoint → List Part
  | .getUser u | .deleteUser u | .disableUser u | .enableUser u =>
      [.fixed "users", .id u false]
  | .getUserGroups u => [.fixed "users", .id u false, .fixed "groups"]
  | .getUserRoles u | .assignRealmRoles u =>
      [.fixed "users", .id u false, .fixed "role-mappings", .fixed "realm"]
  | .logoutUser u => [.fixed "users", .id u false, .fixed "logout"]
  | .sendInviteEmail u =>
      [.fixed "users", .id u false, .fixed "execute-actions-email"]
  | .addUserToGroup u g =>
      [.fixed "users", .id u false, .fixed "groups", .id g false]
  | .getUserByUsername u =>
      [.fixed "api", .fixed "admin", .fixed "v1", .fixed "users",
        .fixed "by-username", .id u true]
  | .finishSession s type =>
      if type = "compat" then
        [.fixed "api", .fixed "admin", .fixed "v1", .fixed "compat-sessions",
          .id s false, .fixed "finish"]
      else if type = "oauth2" then
        [.fixed "api", .fixed "admin", .fixed "v1", .fixed "oauth2-sessions",
          .id s false, .fixed "finish"]
      else []
  | .deactivateUser u =>
      [.fixed "api", .fixed "admin", .fixed "v1", .fixed "users", .id u false,
        .fixed "deactivate"]
  | .reactivateUser u =>
      [.fixed "api", .fixed "admin", .fixed "v1", .fixed "users", .id u false,
        .fixed "reactivate"]
  | .getMatrixUser m =>
      [.fixed "_synapse", .fixed "admin", .fixed "v2", .fixed "users", .id m true]
  | .listDevices m =>
      [.fixed "_synapse", .fixed "admin", .fixed "v2", .fixed "users", .id m true,
        .fixed "devices"]
  | .deleteDevice m d =>
      [.fixed "_synapse", .fixed "admin", .fixed "v2", .fixed "users", .id m true,
        .fixed "devices", .id d false]
  | .getJoinedRoomMembers r =>
      [.fixed "_synapse", .fixed "admin", .fixed "v1", .fixed "rooms", .id r true,
        .fixed "members"]
  | .forceJoinUser r =>
      [.fixed "_synapse", .fixed "admin", .fixed "v1", .fixed "join", .id r true]
  | .kickUserFromRoom r =>
      [.fixed "_matrix", .fixed "client", .fixed "v3", .fixed "rooms", .id r true,
        .fixed "kick"]
  | .getSpaceChildren r =>
      [.fixed "_synapse", .fixed "admin", .fixed "v1", .fixed "rooms", .id r true,
        .fixed "state"]
  | .getRoomDetails r =>
      [.fixed "_synapse", .fixed "admin", .fixed "v1", .fixed "rooms", .id r true]
  | .getPowerLevels r | .setPowerLevel r =>
      [.fixed "_matrix", .fixed "client", .fixed "v3", .fixed "rooms", .id r true,
        .fixed "state", .fixed "m.room.power_levels"]

section

variable {config : ClientConfig} (sites : Sites config) (e : Endpoint)

def site : Site :=
  match e.service with
  | .keycloak => sites.keycloak
  | .mas => sites.mas
  | .synapse => sites.synapse

/-- The segments of the site, and of the realm for Keycloak. -/
def base : List String :=
  match e.service with
  | .keycloak =>
      sites.keycloak.path ++ ["admin", "realms", config.keycloakRealm]
  | .mas => sites.mas.path
  | .synapse => sites.synapse.path

/-- All segments of the endpoint. -/
def segments : List String := e.base sites ++ e.parts.map Part.value

/-- Whatever request the method sends, it reaches the endpoint and no other. -/
def Exact (libs : UrlLibs) : Prop :=
  ∀ req, e.request libs config = .ok req → ∃ target,
    libs.parse req.url = some target ∧
      target.Addresses ((e.segments sites).map fun s => Url.utf8 s.toList)

/-- The ids in the path are ones the client handles. -/
def Safe : Prop := SafeParts e.parts

instance : Decidable e.Safe := inferInstanceAs (Decidable (SafeParts e.parts))

end

end Endpoint

end MatrixIdentityAdmin.Ref
