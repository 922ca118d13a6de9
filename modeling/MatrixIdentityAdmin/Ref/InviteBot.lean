import MatrixIdentityAdmin.Ref.Json
import MatrixIdentityAdmin.Ref.Models
import MatrixIdentityAdmin.Ref.Text
import MatrixIdentityAdmin.Lib.Prog

/-!
# `maubot-invite/invite_bot`

The bot in the operations room. It is a plugin in another language and another
process: all it has of the service is one URL and the secret, and all the people
in the room have of it is one line of text. The command handler is a program over
its two ways out, the request and the reply.
-/

namespace MatrixIdentityAdmin.Ref.InviteBot

open MatrixIdentityAdmin.Lib

/-- What is Python's own: the case tables of `str.lower`, how a document that is
not a string is printed, and whether the `float` of a number is zero. -/
structure Python where
  tables : CaseTables
  repr : Value → String
  isZero : String → Bool

namespace Python

variable (py : Python)

/-- `str.isspace` of a character. -/
def isSpace (c : Char) : Bool :=
  Text.isWhitespace c || decide (0x1c ≤ c.toNat ∧ c.toNat ≤ 0x1f)

/-- `str.strip`. -/
def strip (s : String) : String :=
  String.ofList ((s.toList.dropWhile isSpace).reverse.dropWhile isSpace).reverse

/-- `str.lower`. -/
def lower (s : String) : String := Text.toLowercase py.tables s

/-- `str.rstrip` of one character. -/
def rstrip (s : String) (c : Char) : String :=
  String.ofList (s.toList.reverse.dropWhile (· = c)).reverse

/-- A value in an f-string. -/
def format : Value → String
  | .string s => s
  | v => py.repr v

/-- `bool`. -/
def truthy : Value → Bool
  | .null => false
  | .bool b => b
  | .number n => n ≠ 0
  | .float text => !py.isZero text
  | .string s => s ≠ ""
  | .array items => !items.isEmpty
  | .object members => !members.isEmpty

end Python

/-- `Config`. A room that is not configured is `None` or empty. -/
structure Config where
  adminUrl : String
  botApiSecret : String
  opsRoomId : Option String
deriving DecidableEq, Repr

/-- What the handler reads of a `MessageEvent`. -/
structure MessageEvent where
  roomId : String
  sender : String
deriving DecidableEq, Repr

/-- The arguments of `self.http.post`. -/
structure PostRequest where
  url : String
  headers : List (String × String)
  json : Value

/-- A response, and what `resp.json` makes of its body; an empty body is `None`. -/
structure HttpResponse where
  status : Nat
  json : Except String Value

/-- A request that fails is an exception, with its text. -/
inductive BotCall where
  | post (request : PostRequest)
  | reply (text : String)

abbrev BotCall.Answer : BotCall → Type
  | .post _ => Except String HttpResponse
  | .reply _ => Unit

abbrev Async (α : Type) : Type := Prog BotCall BotCall.Answer α

/-- An exception nobody catches. -/
inductive Uncaught where
  | attributeError
deriving DecidableEq, Repr

def post (request : PostRequest) : Async (Except String HttpResponse) :=
  Prog.send (BotCall.post request)

/-- `await evt.reply(..)` and `return`. -/
def reply (text : String) : Async (Except Uncaught Unit) := do
  Prog.send (BotCall.reply text)
  return .ok ()

/-! ## The lines -/

def usage : String := "Usage: `!invite user@example.com`"

def unreachable (exc : String) : String :=
  s!"Could not reach the admin service: {exc}"

def unexpectedBody (status : Nat) : String :=
  s!"Admin service returned an unexpected response (HTTP {status})."

def sent (email : String) : String :=
  s!"Invite sent to **{email}**. They will receive an email with a link to set their password."

def refused (email message : String) : String :=
  s!"Could not invite **{email}**: {message}"

def misconfigured : String :=
  "Bot is misconfigured (auth error). Contact a server admin."

def noKeycloak (message : String) : String :=
  s!"The admin service could not reach Keycloak: {message}"

def unexpectedStatus (status : Nat) (message : String) : String :=
  s!"Unexpected response (HTTP {status}): {message}"

/-! ## The handler -/

section

variable (py : Python) (bot : Config)

/-- `if ops_room and evt.room_id != ops_room`. -/
def elsewhere (evt : MessageEvent) : Bool :=
  match bot.opsRoomId with
  | some opsRoom => opsRoom ≠ "" && evt.roomId ≠ opsRoom
  | none => false

/-- `email.strip().lower()`. -/
def typed (email : String) : String := py.lower (Python.strip email)

/-- What is posted. -/
def request (evt : MessageEvent) (email : String) : PostRequest where
  url :=
    let adminUrl := Python.rstrip bot.adminUrl '/'
    s!"{adminUrl}/api/v1/invites"
  headers := [("Authorization", s!"Bearer {bot.botApiSecret}"),
    ("Content-Type", "application/json")]
  json := .object [("email", .string email), ("invited_by", .string evt.sender)]

/-- The line for a body that is an object. -/
def line (email : String) (status : Nat) (data : List (String × Value)) : String :=
  let message := match Value.get "message" data with
    | some message => py.format message
    | none => "No message returned."
  if status = 201 && ((Value.get "ok" data).map py.truthy).getD false then sent email
  else if status = 422 then refused email message
  else if status = 401 then misconfigured
  else if status = 502 then noKeycloak message
  else unexpectedStatus status message

/-- `InviteBot.invite_command`. Only an object has a `get`. -/
def inviteCommand (evt : MessageEvent) (email : String) :
    Async (Except Uncaught Unit) :=
  if elsewhere bot evt then return .ok ()
  else
    let email := typed py email
    if email = "" || !email.toList.contains '@' then reply usage
    else do
      match ← post (request bot evt email) with
      | .error exc => reply (unreachable exc)
      | .ok resp =>
          match resp.json with
          | .error _ => reply (unexpectedBody resp.status)
          | .ok (.object data) => reply (line py email resp.status data)
          | .ok _ => return .error .attributeError

end

end MatrixIdentityAdmin.Ref.InviteBot
