import MatrixIdentityAdmin.Lib.Journal
import MatrixIdentityAdmin.Ref.Router

/-!
# Who may change anything

The requests of all browsers share one journal. Whoever sends a request may
put into it every text the server ever encrypted, as whichever cookie; the rest
of a request is the sender's to choose, and what the other services answer is
nobody's. A family of requests over any index is any number of them, in any
order: one that never moves was never sent.

What is asked of a call is asked while it is in flight, of the journal as it is
then: that the request it was made for presented a session somebody signed in
for, with the token of that session, or is the bot's.
-/

namespace MatrixIdentityAdmin.Ref.App

open MatrixIdentityAdmin.Lib InviteHandlers

abbrev Exchange : Type := Event AppCall AppCall.Answer

abbrev History (ι : Type) : Type := Journal ι AppCall AppCall.Answer

/-- The calls that change something at Keycloak, MAS or Synapse, in the tables
of the policy or in the templates file, and the rows of the audit log. -/
def mutates : AppCall → Bool
  | .service (.keycloak c) =>
      match c with
      | .logoutUser _ | .deleteUser _ | .disableUser _ | .enableUser _ => true
      | .searchUsers .. | .countUsers _ | .getUser _ | .getUserGroups _
      | .getUserRoles _ => false
  | .service (.mas c) | .onboarding (.mas c) =>
      match c with
      | .finishSession .. | .deactivateUser _ | .reactivateUser _ => true
      | .getUserByUsername _ | .listSessions _ => false
  | .service (.synapse c) =>
      match c with
      | .forceJoinUser .. | .kickUserFromRoom .. | .setPowerLevel .. => true
      | .getJoinedRoomMembers _ | .getSpaceChildren _ => false
  | .service (.policy .listBindings) => false
  | .onboarding (.keycloak c) =>
      match c with
      | .createUser .. | .sendInviteEmail _ | .addUserToGroup ..
      | .assignRealmRoles .. => true
      | .getUserByEmail _ | .listGroups | .listRealmRoles => false
  | .store (.sql s) =>
      match s with
      | .insertBinding _ | .updateBinding .. | .deleteBinding _
      | .replaceBootstrap .. | .upsertCachedRoom _ | .insertAudit _ => true
      | .selectBindings | .countBootstrap => false
  | .templates .create | .templates (.writeAll _) => true
  | .service (.audit _) | .onboarding (.audit _) | .templates (.audit _) => true
  | .store .newUuid | .store .now | .templates .read | .listRooms ..
  | .session _ => false

/-- The row an audit call writes. -/
def auditRow : AppCall → Option AuditEntry
  | .service (.audit entry) | .onboarding (.audit entry)
  | .store (.sql (.insertAudit entry)) | .templates (.audit entry) => some entry
  | _ => none

section

variable {ι : Type} [DecidableEq ι] (log : History ι)

/-- The server put this text into a cookie. -/
def Issued (text : String) : Prop :=
  ∃ i name, (i, (⟨.session (.addCookie name text), ()⟩ : Exchange)) ∈ log

/-- A cookie that decrypts to something was issued, though perhaps under
another name. -/
def Answers : (c : AppCall) → c.Answer → Prop
  | .session (.getCookie _) => fun x => ∀ text, x = some text → Issued log text
  | _ => fun _ => True

end

/-- Everybody there is. -/
def internet {ι : Type} [DecidableEq ι] : Shared ι AppCall AppCall.Answer (History ι) :=
  Journal.shared Answers

/-- What comes and goes while a callback makes a session. -/
structure SignIn where
  code : String
  flowText : String
  flow : OidcFlowState
  pkceVerifier : String
  idToken : String
  subject : String
  csrfToken : String
  text : String

namespace SignIn

variable (s : SignIn) (config : Config)

/-- What the ID token says. -/
def claims : AuthenticatedClaims :=
  .ofPayload s.subject (config.codecs.decodeJwtPayload s.idToken)

def session : AdminSession := (s.claims config).session s.csrfToken

/-- The cookie of the flow is presented, the code is redeemed, the token is
verified against the nonce of that cookie, and the session is handed out. -/
def exchanges : List Exchange :=
  [⟨.session (.getCookie oidcFlowCookie), some s.flowText⟩,
    ⟨.session (.exchangeCode s.code s.pkceVerifier), .ok (some s.idToken)⟩,
    ⟨.session (.claims s.idToken s.flow.nonce), .ok s.subject⟩,
    ⟨.session .generateToken, s.csrfToken⟩,
    ⟨.session (.removeCookie oidcFlowCookie), ()⟩,
    ⟨.session (.addCookie sessionCookie s.text), ()⟩]

end SignIn

section

variable {ι : Type} [DecidableEq ι] (config : Config) (requests : ι → Request)
  (log : History ι)

/-- Request `i` was a callback that returned the state of the flow it came
with, and got a token with the role of an admin. -/
structure SignedIn (i : ι) (s : SignIn) : Prop where
  request : requests i = .callback s.code s.flow.csrfToken
  flow : config.codecs.parse OidcFlowState.fromValue s.flowText = some s.flow
  role : config.requiredAdminRole ∈ (s.claims config).roles
  printed : config.codecs.print (s.session config).toValue = .ok s.text
  exchanged : s.exchanges <+: log.of i

/-- Some callback made this session and put it into this text. -/
def Minted (text : String) (session : AdminSession) : Prop :=
  ∃ i s, SignedIn config requests log i s ∧ s.text = text ∧
    s.session config = session

/-- Request `i` presented a session, with its token in the form. -/
def Presented (i : ι) (session : AdminSession) : Prop :=
  ∃ text rest, log.of i =
      ⟨.session (.getCookie sessionCookie), some text⟩ :: rest ∧
    Minted config requests log text session ∧
    (requests i).csrf = some session.csrfToken

/-- Whom request `i` may act as. -/
def MayActAs (i : ι) (subject username : String) : Prop :=
  (∃ session, Presented config requests log i session ∧
    subject = session.subject ∧ username = session.username) ∨
  ∃ body, requests i = .createInvite (some (expectedHeader config)) body ∧
    subject = botActor ∧ username = botActor

/-- Who is behind a call is known, and an audit row names nobody else. -/
def Authorised (i : ι) (c : AppCall) : Prop :=
  mutates c = true → ∃ subject username,
    MayActAs config requests log i subject username ∧
    ∀ entry, auditRow c = some entry →
      entry.adminSubject = subject ∧ entry.adminUsername = username

end

/-- What is written for a cookie is read back as what it was. -/
structure Faithful (codecs : Codecs) : Prop where
  session : ∀ (s : AdminSession) text,
    codecs.toString s.toValue = .ok text → codecs.fromStr text = .ok s.toValue
  flow : ∀ (s : OidcFlowState) text,
    codecs.toString s.toValue = .ok text → codecs.fromStr text = .ok s.toValue

end MatrixIdentityAdmin.Ref.App
