import MatrixIdentityAdmin.Lib.KeyedTable
import MatrixIdentityAdmin.Spec.Invites

/-!
# The upstreams an invitation finds

Keycloak's accounts, of which no two share an id, a username or an e-mail, and
what else the calls of an invitation read or change. On a good day every call
succeeds, except that a username or an e-mail is not given out twice. On any
other day a call may fail instead, and one that failed may have taken effect
all the same.
-/

namespace MatrixIdentityAdmin.Ref.InviteUser

open MatrixIdentityAdmin.Lib

/-- An account as Keycloak keeps it. -/
structure KeycloakAccount where
  user : KeycloakUser
  email : String
deriving DecidableEq, Repr

/-- What Keycloak keeps apart. -/
def KeycloakAccount.keys : List (KeycloakAccount → String) :=
  [fun a => a.user.id, fun a => a.user.username, KeycloakAccount.email]

abbrev KeycloakAccounts : Type :=
  KeyedTable KeycloakAccount String (fun _ => True) KeycloakAccount.keys

/-- What an invitation reads and writes. -/
structure InviteWorld where
  accounts : KeycloakAccounts
  groups : List KeycloakGroup
  roles : List KeycloakRole
  masUsers : List MasUser
  audit : List AuditEntry

namespace InviteWorld

/-- Nobody, and nothing to be in. -/
def empty : InviteWorld := ⟨.empty, [], [], [], []⟩

variable (w : InviteWorld)

/-- Keycloak's answer to a creation, under an id nobody has. -/
def create (newId refusal username email : String) :
    Result String × InviteWorld :=
  match w.accounts.insert ⟨⟨newId, username, true⟩, email⟩ with
  | some accounts => (.ok newId, { w with accounts := accounts })
  | none => (.error (.upstream "keycloak" refusal), w)

def revive (id : String) : InviteWorld :=
  { w with masUsers := w.masUsers.map fun m =>
      if m.id = id then { m with deactivatedAt := none } else m }

def serveKeycloak (newId refusal : String) :
    (c : OnboardingCall) → Result c.Ret × InviteWorld
  | .getUserByEmail email =>
      (.ok ((w.accounts.lookup KeycloakAccount.email email).map
        KeycloakAccount.user), w)
  | .createUser username email => w.create newId refusal username email
  | .listGroups => (.ok w.groups, w)
  | .listRealmRoles => (.ok w.roles, w)
  | .sendInviteEmail _ | .addUserToGroup .. | .assignRealmRoles .. => (.ok (), w)

def serveMas : (c : AuthCall) → Result c.Ret × InviteWorld
  | .getUserByUsername username =>
      (.ok (w.masUsers.find? fun m => m.username = username), w)
  | .listSessions _ => (.ok ⟨[], []⟩, w)
  | .reactivateUser id => (.ok (), w.revive id)
  | .finishSession .. | .deactivateUser _ => (.ok (), w)

def serve (newId refusal : String) : (c : InviteCall) → c.Answer × InviteWorld
  | .keycloak c => w.serveKeycloak newId refusal c
  | .mas c => w.serveMas c
  | .audit entry => (.ok (), { w with audit := w.audit ++ [entry] })

/-- Everything works. -/
def goodDay : Env InviteCall InviteCall.Answer InviteWorld where
  pre _ _ := True
  step w c x w' := ∃ newId refusal, w.serve newId refusal c = (x, w') ∧
    ∀ a ∈ w.accounts.rows, a.user.id ≠ newId

/-- Anything may fail, with or without having been done. -/
def anyDay : Env InviteCall InviteCall.Answer InviteWorld where
  pre _ _ := True
  step w c x w' := goodDay.step w c x w' ∨
    ∃ e, x = .error e ∧ (w' = w ∨ ∃ y, goodDay.step w c y w')

/-- Some account has the e-mail. -/
def HasEmail (email : String) : Prop :=
  ∃ a ∈ w.accounts.rows, a.email = email

/-- Some account is in the way of an invitation. -/
def Occupied (v : ValidatedInviteEmail) : Prop :=
  ∃ a ∈ w.accounts.rows, a.email = v.email ∨ a.user.username = v.localPart

end InviteWorld

end MatrixIdentityAdmin.Ref.InviteUser
