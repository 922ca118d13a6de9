import Mathlib.Data.List.Sort
import Mathlib.Data.Prod.Lex
import Mathlib.Data.String.Basic
import MatrixIdentityAdmin.Lib.Directory
import MatrixIdentityAdmin.Lib.Exec
import MatrixIdentityAdmin.Ref.Calls

/-!
# The world the service acts on

What the four upstream systems and the database hold, as far as the calls of
`Ref/Calls.lean` read or change it, and how each call is served by a system
that works. The child lists of spaces, the groups and roles and the bindings
are read only: no call modelled here changes them, and disabling an account
leaves its groups and roles in place.

`respond` is the same world on a bad day. A call may fail, and a call that
failed may have taken effect all the same; a session list may come back short,
with a warning or without one. `World.days` are days on which certain things may
happen to a call, and `World.env` are those on which no list is short and does
not say so.
-/

namespace MatrixIdentityAdmin.Ref

open MatrixIdentityAdmin.Lib

abbrev Realm : Type :=
  Directory KeycloakUser String KeycloakUser.id KeycloakUser.username

abbrev Accounts : Type := Directory MasUser String MasUser.id MasUser.username

/-- What else Keycloak has about a user. -/
structure Profile where
  email : Option String
  firstName : Option String
  lastName : Option String
  requiredActions : List String
deriving DecidableEq, Repr

/-- The state of the systems the service is put in front of: the records, groups,
roles, profiles and logins of Keycloak by Keycloak id, the accounts of MAS and
their sessions by account id, finished ones included, the rooms of Synapse with
their children, members and power levels, and the database. -/
structure World where
  realm : Realm
  groups : String → List KeycloakGroup
  roles : String → List KeycloakRole
  profiles : String → Profile
  loggedIn : String → Bool
  accounts : Accounts
  sessions : String → List MasSession
  children : String → List String
  members : String → List String
  power : String → String → Option Int
  bindings : List PolicyBinding
  audit : List AuditEntry
  now : String

/-- A world with nobody and nothing in it. -/
def World.empty : World where
  realm := ⟨[], List.nodup_nil, List.nodup_nil⟩
  groups _ := []
  roles _ := []
  profiles _ := ⟨none, none, none, []⟩
  loggedIn _ := false
  accounts := ⟨[], List.nodup_nil, List.nodup_nil⟩
  sessions _ := []
  children _ := []
  members _ := []
  power _ _ := none
  bindings := []
  audit := []
  now := "2026-03-09T00:00:00Z"

/-- `ORDER BY subject_type, subject_value, target_room_id`. -/
def PolicyBinding.sortKey (b : PolicyBinding) :
    Lex (String × Lex (String × String)) :=
  toLex (b.subject.subjectType, toLex (b.subject.value, b.target.roomId))

/-- The answer of a service that has no such record. -/
def absent (service : String) : AppError := .upstream service "404 Not Found"

namespace World

/-- `db::policy::list_bindings`. -/
def listed (w : World) : List PolicyBinding :=
  w.bindings.insertionSort fun a b => a.sortKey ≤ b.sortKey

/-! ## The changes -/

def switchOn (enabled : Bool) (u : KeycloakUser) : KeycloakUser :=
  { u with enabled := enabled }

def setEnabled (w : World) (id : String) (enabled : Bool) : World :=
  { w with
    realm := w.realm.modify id (switchOn enabled) (fun _ => rfl) fun _ => rfl }

def eraseUser (w : World) (id : String) : World :=
  { w with realm := w.realm.erase id }

def logout (w : World) (id : String) : World :=
  { w with loggedIn := fun i => if i = id then false else w.loggedIn i }

def stamp (time : Option String) (u : MasUser) : MasUser :=
  { u with deactivatedAt := time }

def setDeactivated (w : World) (id : String) (time : Option String) : World :=
  { w with
    accounts := w.accounts.modify id (stamp time) (fun _ => rfl) fun _ => rfl }

/-- A session that is over, from this time on if it was not before. -/
def ended (time : String) (s : MasSession) : MasSession :=
  { s with finishedAt := some (s.finishedAt.getD time) }

/-- MAS locks the account and ends its sessions. -/
def deactivate (w : World) (id : String) : World :=
  { w.setDeactivated id (some w.now) with
    sessions := fun i =>
      if i = id then (w.sessions i).map (ended w.now) else w.sessions i }

/-- Finish the sessions with an id and a type. -/
def finish (w : World) (sessionId sessionType : String) : World :=
  { w with sessions := fun id => (w.sessions id).map fun s =>
      if s.id = sessionId ∧ s.sessionType = sessionType then
        { s with finishedAt := some w.now }
      else s }

def join (w : World) (userId roomId : String) : World :=
  { w with members := fun r =>
      if r = roomId ∧ userId ∉ w.members r then w.members r ++ [userId]
      else w.members r }

def kick (w : World) (userId roomId : String) : World :=
  { w with members := fun r =>
      if r = roomId then (w.members r).filter fun u => u ≠ userId
      else w.members r }

def setPower (w : World) (roomId userId : String) (level : Int) : World :=
  { w with power := fun r u =>
      if r = roomId ∧ u = userId then some level else w.power r u }

def record (w : World) (entry : AuditEntry) : World :=
  { w with audit := w.audit ++ [entry] }

theorem byId_setEnabled {w : World} {id j : String} {e : Bool}
    {u : KeycloakUser} (h : w.realm.byId j = some u) :
    (w.setEnabled id e).realm.byId j =
      some (if u.id = id then switchOn e u else u) :=
  Directory.byId_modify (f := switchOn e) (fun _ => rfl) (fun _ => rfl) h

theorem byName_setDeactivated {w : World} {id n : String} {t : Option String}
    {a : MasUser} (h : (w.setDeactivated id t).accounts.byName n = some a) :
    ∃ b, w.accounts.byName n = some b ∧
      a = if b.id = id then stamp t b else b :=
  Directory.byName_modify (f := stamp t) (fun _ => rfl) (fun _ => rfl) h

/-- A deactivation makes up no session and gives none back. -/
theorem mem_sessions_deactivate {w : World} {id i : String} {s' : MasSession}
    (h : s' ∈ (w.deactivate id).sessions i) : ∃ s ∈ w.sessions i,
      s'.id = s.id ∧ s'.sessionType = s.sessionType ∧
        (s.finishedAt.isSome → s'.finishedAt.isSome) := by
  have hmem : s' ∈ if i = id then (w.sessions i).map (ended w.now) else w.sessions i := h
  split at hmem
  · obtain ⟨s, hs, rfl⟩ := List.mem_map.1 hmem
    exact ⟨s, hs, rfl, rfl, fun _ => rfl⟩
  · exact ⟨s', hmem, rfl, rfl, fun h => h⟩

/-! ## The calls, served -/

/-- The sessions MAS lists: those that are not over. -/
def active (w : World) (masUserId : String) : List MasSession :=
  (w.sessions masUserId).filter fun s => s.finishedAt.isNone

theorem mem_active {w : World} {masUserId : String} {s : MasSession} :
    s ∈ w.active masUserId ↔ s ∈ w.sessions masUserId ∧ s.finishedAt = none := by
  rw [active, List.mem_filter, Option.isNone_iff_eq_none]

/-- The records a search finds: those whose username starts with the query. -/
def search (w : World) (query : String) : List KeycloakUser :=
  w.realm.rows.filter fun u => query.toList.isPrefixOf u.username.toList

/-- A value or a change that needs the Keycloak record to be there. -/
def withUser {α : Type} (w : World) (id : String) (a : α) (w' : World) :
    Result α × World :=
  match w.realm.byId id with
  | some _ => (.ok a, w')
  | none => (.error (absent "keycloak"), w)

def withAccount (w : World) (id : String) (w' : World) : Result Unit × World :=
  match w.accounts.byId id with
  | some _ => (.ok (), w')
  | none => (.error (absent "mas"), w)

theorem withUser_ok {α : Type} {w w' w'' : World} {id : String} {a b : α}
    (h : w.withUser id a w' = (.ok b, w'')) :
    (∃ u, w.realm.byId id = some u) ∧ b = a ∧ w'' = w' := by
  rw [withUser] at h
  split at h
  · next u hu =>
      cases h
      exact ⟨⟨u, hu⟩, rfl, rfl⟩
  · cases h

theorem withAccount_ok {w w' w'' : World} {id : String} {b : Unit}
    (h : w.withAccount id w' = (.ok b, w'')) :
    (∃ u, w.accounts.byId id = some u) ∧ w'' = w' := by
  rw [withAccount] at h
  split at h
  · next u hu =>
      cases h
      exact ⟨⟨u, hu⟩, rfl⟩
  · cases h

def serveKeycloak (w : World) : (c : KeycloakCall) → Result c.Ret × World
  | .searchUsers query max first =>
      (.ok (((w.search query).drop first.toNat).take max.toNat), w)
  | .countUsers query =>
      -- The count is parsed as a `u32`.
      if (w.search query).length < UInt32.size then
        (.ok (w.search query).length.toUInt32, w)
      else
        (.error (.upstream "keycloak" "error decoding response body"), w)
  | .getUser id =>
      match w.realm.byId id with
      | some u => (.ok u, w)
      | none => (.error (absent "keycloak"), w)
  | .getUserGroups id => w.withUser id (w.groups id) w
  | .getUserRoles id => w.withUser id (w.roles id) w
  | .logoutUser id => w.withUser id () (w.logout id)
  | .deleteUser id => w.withUser id () (w.eraseUser id)
  | .disableUser id => w.withUser id () (w.setEnabled id false)
  | .enableUser id => w.withUser id () (w.setEnabled id true)

def serveMas (w : World) : (c : AuthCall) → Result c.Ret × World
  | .getUserByUsername username => (.ok (w.accounts.byName username), w)
  | .listSessions id => (.ok ⟨w.active id, []⟩, w)
  | .finishSession id type => (.ok (), w.finish id type)
  | .deactivateUser id => w.withAccount id (w.deactivate id)
  | .reactivateUser id => w.withAccount id (w.setDeactivated id none)

def serveSynapse (w : World) : (c : MatrixCall) → Result c.Ret × World
  | .getJoinedRoomMembers r => (.ok (w.members r), w)
  | .forceJoinUser u r => (.ok (), w.join u r)
  | .kickUserFromRoom u r _ => (.ok (), w.kick u r)
  | .getSpaceChildren r => (.ok (w.children r), w)
  | .setPowerLevel r u level => (.ok (), w.setPower r u level)

/-- How a call is answered, and what it changes, when nothing goes wrong. -/
def serve (w : World) : (c : Call) → Answer c × World
  | .keycloak c => w.serveKeycloak c
  | .mas c => w.serveMas c
  | .synapse c => w.serveSynapse c
  | .audit entry => (.ok (), w.record entry)
  | .policy .listBindings => (.ok w.listed, w)

end World

/-! ## Bad days -/

/-- What can happen to a call. -/
inductive Fault where
  | none
  | fails (e : AppError) (tookEffect : Bool)
  /-- A list of some of the sessions, in any order, with warnings or without. -/
  | short (warnings : List String) (cut : List MasSession → List MasSession)
      (hcut : ∀ l, cut l ⊆ l)

/-- If there is no warning, nothing is missing. -/
def Fault.Loud : Fault → Prop
  | .none | .fails .. => True
  | .short warnings cut _ => warnings = [] → ∀ l, l ⊆ cut l

namespace World

def respond (w : World) : Fault → (c : Call) → Answer c × World
  | .none, c => w.serve c
  | .fails e tookEffect, c => (.error e, if tookEffect then (w.serve c).2 else w)
  | .short warnings cut _, .mas (.listSessions id) => (.ok ⟨cut (w.active id), warnings⟩, w)
  | .short .., c => w.serve c

/-- What a call can do to the world: its one change, or nothing. -/
inductive Change (w : World) : Call → World → Prop where
  | none (c : Call) : Change w c w
  | logout (id : String) : Change w (.keycloak (.logoutUser id)) (w.logout id)
  | disable (id : String) :
      Change w (.keycloak (.disableUser id)) (w.setEnabled id false)
  | enable (id : String) :
      Change w (.keycloak (.enableUser id)) (w.setEnabled id true)
  | erase (id : String) : Change w (.keycloak (.deleteUser id)) (w.eraseUser id)
  | finish (id type : String) :
      Change w (.mas (.finishSession id type)) (w.finish id type)
  | deactivate (id : String) :
      Change w (.mas (.deactivateUser id)) (w.deactivate id)
  | reactivate (id : String) :
      Change w (.mas (.reactivateUser id)) (w.setDeactivated id .none)
  | join (u r : String) : Change w (.synapse (.forceJoinUser u r)) (w.join u r)
  | kick (u r why : String) :
      Change w (.synapse (.kickUserFromRoom u r why)) (w.kick u r)
  | power (r u : String) (level : Int) :
      Change w (.synapse (.setPowerLevel r u level)) (w.setPower r u level)
  | record (entry : AuditEntry) : Change w (.audit entry) (w.record entry)

theorem withUser_change {α : Type} {w w' : World} {c : Call} {id : String}
    {a : α} (h : w.Change c w') : w.Change c (w.withUser id a w').2 := by
  rw [withUser]
  split
  · exact h
  · exact .none c

theorem withAccount_change {w w' : World} {c : Call} {id : String}
    (h : w.Change c w') : w.Change c (w.withAccount id w').2 := by
  rw [withAccount]
  split
  · exact h
  · exact .none c

theorem serve_change (w : World) (c : Call) : w.Change c (w.serve c).2 := by
  cases c with
  | keycloak c =>
      cases c with
      | searchUsers q n f => exact .none _
      | countUsers q =>
          show w.Change _ (w.serveKeycloak (.countUsers q)).2
          rw [serveKeycloak]
          split
          · exact .none _
          · exact .none _
      | getUser id =>
          show w.Change _ (w.serveKeycloak (.getUser id)).2
          rw [serveKeycloak]
          split
          · exact .none _
          · exact .none _
      | getUserGroups id => exact withUser_change (.none _)
      | getUserRoles id => exact withUser_change (.none _)
      | logoutUser id => exact withUser_change (.logout id)
      | deleteUser id => exact withUser_change (.erase id)
      | disableUser id => exact withUser_change (.disable id)
      | enableUser id => exact withUser_change (.enable id)
  | mas c =>
      cases c with
      | getUserByUsername n => exact .none _
      | listSessions id => exact .none _
      | finishSession i t => exact .finish i t
      | deactivateUser id => exact withAccount_change (.deactivate id)
      | reactivateUser id => exact withAccount_change (.reactivate id)
  | synapse c =>
      cases c with
      | getJoinedRoomMembers r => exact .none _
      | forceJoinUser u r => exact .join u r
      | kickUserFromRoom u r why => exact .kick u r why
      | getSpaceChildren r => exact .none _
      | setPowerLevel r u level => exact .power r u level
  | audit entry => exact .record entry
  | policy c => exact .none _

/-- Any call may be made, and anything that is allowed to happen to it may
happen. -/
def days (Allowed : World → Fault → Prop) : Env Call Answer World where
  pre _ _ := True
  step w c x w' := ∃ fault, Allowed w fault ∧ w.respond fault c = (x, w')

/-- Days on which a session list without warnings is complete. -/
abbrev env : Env Call Answer World := days fun _ fault => fault.Loud

/-- Days on which anything can happen. -/
abbrev anyDay : Env Call Answer World := days fun _ _ => True

/-- A good day is one of the days. -/
theorem step_serve (w : World) (c : Call) :
    env.step w c (w.serve c).1 (w.serve c).2 := ⟨.none, trivial, rfl⟩

/-- Only session lists come back short. -/
theorem respond_short {w : World} {warnings : List String}
    {cut : List MasSession → List MasSession} {hcut : ∀ l, cut l ⊆ l} {c : Call}
    (hc : ∀ id, c ≠ .mas (.listSessions id)) :
    w.respond (.short warnings cut hcut) c = w.serve c := by
  cases c with
  | mas c =>
      cases c with
      | listSessions id => exact absurd rfl (hc id)
      | getUserByUsername n => rfl
      | finishSession i t => rfl
      | deactivateUser i => rfl
      | reactivateUser i => rfl
  | keycloak c => rfl
  | synapse c => rfl
  | audit e => rfl
  | policy c => rfl

section

variable {Allowed : World → Fault → Prop}

/-- Whatever becomes of a call, it makes its own change or none. -/
theorem step_change {w w' : World} {c : Call} {x : Answer c}
    (h : (days Allowed).step w c x w') : w.Change c w' := by
  obtain ⟨fault, -, h⟩ := h
  obtain rfl : (w.respond fault c).2 = w' := congrArg Prod.snd h
  cases fault with
  | none => exact serve_change w c
  | fails e tookEffect =>
      cases tookEffect with
      | false => exact .none c
      | true => exact serve_change w c
  | short warnings cut hcut =>
      by_cases hc : ∃ id, c = .mas (.listSessions id)
      · obtain ⟨id, rfl⟩ := hc
        exact .none _
      · rw [respond_short fun id hid => hc ⟨id, hid⟩]
        exact serve_change w c

/-- A call that came back `Ok` took effect and told the truth, a session list
excepted. -/
theorem step_ok {w w' : World} {c : Call} {a : c.Ret}
    (h : (days Allowed).step w c (.ok a) w') (hc : ∀ id, c ≠ .mas (.listSessions id)) :
    w.serve c = (.ok a, w') := by
  obtain ⟨fault, -, h⟩ := h
  cases fault with
  | none => exact h
  | fails e tookEffect => cases congrArg Prod.fst h
  | short warnings cut hcut => exact (respond_short hc).symm.trans h

/-- A session list names active sessions. -/
theorem step_listed {w w' : World} {id : String} {l : SessionListResult}
    (h : (days Allowed).step w (.mas (.listSessions id)) (.ok l) w') :
    l.sessions ⊆ w.active id := by
  obtain ⟨fault, -, h⟩ := h
  cases fault with
  | none =>
      cases h
      exact List.Subset.refl _
  | fails e tookEffect => cases congrArg Prod.fst h
  | short warnings cut hcut =>
      cases h
      exact hcut (w.active id)

/-- And a list without warnings all of them, if that is the kind of day it is. -/
theorem step_listSessions {w w' : World} {id : String} {l : SessionListResult}
    (h : env.step w (.mas (.listSessions id)) (.ok l) w')
    (hl : l.warnings = []) : w.active id ⊆ l.sessions := by
  obtain ⟨fault, hloud, h⟩ := h
  cases fault with
  | none =>
      cases h
      exact List.Subset.refl _
  | fails e tookEffect => cases congrArg Prod.fst h
  | short warnings cut hcut =>
      cases h
      exact hloud hl (w.active id)

theorem step_getUserByUsername {w w' : World} {n : String}
    {found : Option MasUser}
    (h : (days Allowed).step w (.mas (.getUserByUsername n)) (.ok found) w') :
    w.accounts.byName n = found ∧ w = w' := by
  cases step_ok h (by simp)
  exact ⟨rfl, rfl⟩

theorem step_getUser {w w' : World} {id : String} {u : KeycloakUser}
    (h : (days Allowed).step w (.keycloak (.getUser id)) (.ok u) w') :
    w.realm.byId id = some u ∧ w' = w := by
  have hserve : w.serveKeycloak (.getUser id) = (.ok u, w') :=
    step_ok h (by simp)
  rw [serveKeycloak] at hserve
  split at hserve
  · next v hv =>
      cases hserve
      exact ⟨hv, rfl⟩
  · cases hserve

theorem step_getUserGroups {w w' : World} {id : String}
    {gs : List KeycloakGroup}
    (h : (days Allowed).step w (.keycloak (.getUserGroups id)) (.ok gs) w') :
    gs = w.groups id := (withUser_ok (step_ok h (by simp))).2.1

theorem step_getUserRoles {w w' : World} {id : String}
    {rs : List KeycloakRole}
    (h : (days Allowed).step w (.keycloak (.getUserRoles id)) (.ok rs) w') :
    rs = w.roles id := (withUser_ok (step_ok h (by simp))).2.1

theorem step_listBindings {w w' : World} {bs : List PolicyBinding}
    (h : (days Allowed).step w (.policy .listBindings) (.ok bs) w') : bs = w.listed := by
  cases step_ok h (by simp)
  rfl

/-- A page holds records of the realm. -/
theorem step_searchUsers {w w' : World} {query : String} {max first : UInt32}
    {page : List KeycloakUser}
    (h : (days Allowed).step w (.keycloak (.searchUsers query max first)) (.ok page) w') :
    ∀ v ∈ page, v ∈ w.realm.rows := by
  cases step_ok h (by simp)
  intro v hv
  exact (List.mem_filter.1 (List.mem_of_mem_drop (List.mem_of_mem_take hv))).1

end

end World

end MatrixIdentityAdmin.Ref
