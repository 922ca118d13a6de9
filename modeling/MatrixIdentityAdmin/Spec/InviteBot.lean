import MatrixIdentityAdmin.Ref.InviteBot
import MatrixIdentityAdmin.Ref.InviteHandlers
import MatrixIdentityAdmin.Spec.InviteWorld

/-!
# The bot, the service and what lies between

A command goes from the room to the bot, from the bot to the service, from the
service to Keycloak and MAS, and the answer all the way back. A request that is
posted is served, or it is cut off: the service may have come any part of the way
with it then, and whoever speaks for the service uses none of the three statuses
that mean something to the bot.

The room sees one line of text. `Truthful` is what the line has to be worth.
-/

namespace MatrixIdentityAdmin.Ref.InviteBot

open MatrixIdentityAdmin.Lib App InviteHandlers InviteUser

/-! ## The service behind the URL -/

/-- The errors the clients and the database make. -/
def Reported : AppError → Prop
  | .upstream .. | .database _ => True
  | _ => False

/-- Any day, with errors as they are made. -/
def workday : Env InviteCall InviteCall.Answer InviteWorld where
  pre _ _ := True
  step w c x w' := InviteWorld.anyDay.step w c x w' ∧ ∀ e, x = .error e → Reported e

/-- The part of the world an invitation has to do with; other calls of a handler
leave it alone. -/
def behind (day : Env InviteCall InviteCall.Answer InviteWorld) :
    Env AppCall AppCall.Answer InviteWorld where
  pre _ _ := True
  step
    | w, .onboarding c, x, w' => day.step w c x w'
    | w, _, _, w' => w' = w

/-- The header as it gets to the service, through the libraries on both sides. -/
def authorization (deliver : String → Option String) (request : PostRequest) :
    Option String :=
  (request.headers.lookup "Authorization").bind deliver

section

variable (deliver : String → Option String) (config : App.Config)

section

variable (day : Env InviteCall InviteCall.Answer InviteWorld)

/-- The request is served, and the answer is the handler's. -/
def Served (w : InviteWorld) (request : PostRequest)
    (answer : Except String HttpResponse) (w' : InviteWorld) : Prop :=
  ∃ body t status ok message, InviteRequest.fromValue request.json = some body ∧
    (createInvite config (authorization deliver request) body).Runs t
      (.json status ok message) ∧
    (behind day).Path w t w' ∧
    answer = .ok ⟨status.toNat, .ok (inviteBody ok message)⟩

/-- The service came some way with the request. The answer is an exception, or
somebody else's. -/
def CutOff (w : InviteWorld) (request : PostRequest)
    (answer : Except String HttpResponse) (w' : InviteWorld) : Prop :=
  (∃ body t q, InviteRequest.fromValue request.json = some body ∧
    (createInvite config (authorization deliver request) body).Reaches t q ∧
    (behind day).Path w t w') ∧
  ∀ resp, answer = .ok resp → resp.status ∉ [201, 401, 422]

end

/-- The bot's surroundings, by what can become of a request. Nothing happens while
the bot talks. -/
def around (becomes : InviteWorld → PostRequest → Except String HttpResponse →
    InviteWorld → Prop) : Env BotCall BotCall.Answer InviteWorld where
  pre _ _ := True
  step
    | w, .post request, answer, w' => becomes w request answer w'
    | w, .reply _, _, w' => w' = w

/-- Any day. -/
def surroundings : Env BotCall BotCall.Answer InviteWorld :=
  around fun w request answer w' =>
    Served deliver config workday w request answer w' ∨
      CutOff deliver config workday w request answer w'

/-- A day on which every request is served and everything works. -/
def fairWeather : Env BotCall BotCall.Answer InviteWorld :=
  around (Served deliver config InviteWorld.goodDay)

end

/-! ## What the room sees -/

abbrev BotExchange : Type := Event BotCall BotCall.Answer

def BotCall.said : BotCall → Option String
  | .post _ => none
  | .reply text => some text

def BotCall.posted : BotCall → Option PostRequest
  | .post request => some request
  | .reply _ => none

/-- The lines, in order. -/
def replies (t : List BotExchange) : List String := (calls t).filterMap BotCall.said

def posts (t : List BotExchange) : List PostRequest :=
  (calls t).filterMap BotCall.posted

/-- Every body the bot read is a JSON object. -/
def Objects (t : List BotExchange) : Prop :=
  ∀ request resp v, (⟨.post request, .ok resp⟩ : BotExchange) ∈ t → resp.json = .ok v →
    ∃ data, v = .object data

/-- The address may be invited. -/
structure Admissible (config : App.Config) (email : String)
    (v : ValidatedInviteEmail) : Prop where
  valid : validateInviteEmail config.tables email = .ok v
  domain : domainAllowed config.inviteAllowedDomains v.domain = true
  localPart : isValidMatrixLocalpart v.localPart = true

/-- The account is there, enabled and under the address, and the log ends with who
asked for it. -/
def Invited (config : App.Config) (evt : MessageEvent) (v : ValidatedInviteEmail)
    (w w' : InviteWorld) : Prop :=
  ∃ userId, w'.accounts.rows =
      w.accounts.rows ++ [⟨⟨userId, v.localPart, true⟩, v.email⟩] ∧
    w'.audit.getLast? = some (inviteEntry botActor botActor config.homeserverDomain v
      (some evt.sender) none userId .none .success)

/-- What a line in the room says of the world. -/
structure Truthful (py : Python) (config : App.Config) (evt : MessageEvent)
    (email : String) (w w' : InviteWorld) (text : String) : Prop where
  sent : text = sent (typed py email) →
    ∃ v, Admissible config (typed py email) v ∧ Invited config evt v w w'
  refused : ∀ message, text = refused (typed py email) message → w' = w
  misconfigured : text = misconfigured → w' = w
  usage : text = usage → w' = w

end MatrixIdentityAdmin.Ref.InviteBot
