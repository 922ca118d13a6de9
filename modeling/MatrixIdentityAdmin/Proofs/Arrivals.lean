import MatrixIdentityAdmin.Proofs.Wire

/-!
# Promises over the wire

Where do the ids of a request come from? The Keycloak id is the one the admin
asked about. The username and the ids of the MAS account and its sessions are
those of the record (`UserRequest.run_mine`). The rooms are targets of bindings
and the children Synapse names for them, which is shown here (`run_roams`). So
in a world whose ids are tidy every call of a request arrives, and what a
request promises of the world is kept by the servers.
-/

namespace MatrixIdentityAdmin.Ref

open MatrixIdentityAdmin.Lib
open KeycloakClient (Response TokenCall)
open MasClient (Family)

variable {P : String → Prop}

/-! ## Where the rooms come from -/

/-- The room a call is about, if there is one. -/
def Call.Visits (P : String → Prop) : Call → Prop
  | .synapse (.getJoinedRoomMembers r) | .synapse (.forceJoinUser _ r)
  | .synapse (.kickUserFromRoom _ r _) | .synapse (.getSpaceChildren r)
  | .synapse (.setPowerLevel r _ _) => P r
  | _ => True

/-- The rooms an answer names. -/
def ToldRooms (P : String → Prop) : (c : Call) → Answer c → Prop
  | .synapse (.getSpaceChildren _), .ok children => ∀ r ∈ children, P r
  | .policy .listBindings, .ok bindings => ∀ b ∈ bindings, P b.target.roomId
  | _, _ => True

/-- A program that goes to rooms it was told of. -/
abbrev Roams (P : String → Prop) {α : Type} (p : Async α) (Q : α → Prop) : Prop :=
  p.Minds (ToldRooms P) (Call.Visits P) (fun _ => Eq) Q

theorem Roams.next {α β ε : Type} {p : Async (Except ε α)} {f : α → Async (Except ε β)}
    (hp : Roams P p fun _ => True) (hf : ∀ a, Roams P (f a) fun _ => True) :
    Roams P (p.andThen f) fun _ => True :=
  Prog.Minds.andThen (R := fun _ => True) (hp.mono fun _ _ _ _ => trivial)
    (fun _ => trivial) fun a _ => hf a

section

variable {context keycloakId m adminSubject adminUsername : String}
  {bindings : List PolicyBinding} {b : PolicyBinding} {r : String}

theorem expandTargets_roams {warnings : List String} (hr : P r) :
    Roams P (expandTargets r warnings) fun found => ∀ x ∈ found.1, P x := by
  refine .plain hr (fun _ _ h => h) fun x hx => ?_
  cases x with
  | error e =>
      intro y hy
      rw [List.mem_singleton.1 hy]
      exact hr
  | ok children =>
      have hall : ∀ y ∈ r :: children, P y := List.forall_mem_cons.2 ⟨hr, hx⟩
      cases children with
      | nil => exact hall
      | cons child children => exact hall

theorem reconcileMembership_roams {groups roles : List String}
    (hb : ∀ b ∈ bindings, P b.target.roomId) :
    Roams P (reconcileMembership keycloakId m groups roles adminSubject adminUsername
      bindings) fun _ => True := by
  refine Prog.Minds.bind (.foldlM (fun b hmem outcome => ?_) _) fun _ _ => trivial
  refine (expandTargets_roams (hb b hmem)).bind fun targets htargets => ?_
  show Prog.Minds _ _ _ (if _ then _ else if _ then _ else _) _
  split
  · refine .foldlM (fun r hr _ => .of_only ?_) _
    exact joinTarget_only (htargets r hr) (htargets r hr) (fun _ => trivial)
      fun _ _ => htargets r hr
  · split
    · refine .foldlM (fun r hr _ => .of_only ?_) _
      have hroom := htargets r (List.mem_reverse.1 hr)
      exact kickTarget_only hroom hroom fun _ => trivial
    · trivial

theorem previewTarget_only {isMatch : Bool} {preview : ReconcilePreview} {P : Call → Prop}
    (hread : P (.synapse (.getJoinedRoomMembers r))) :
    (previewTarget m b isMatch preview r).Only P := by
  refine ⟨hread, fun x => ?_⟩
  cases x with
  | error e => trivial
  | ok ms =>
      show Prog.Only _ (if _ then _ else if _ then _ else if _ then _ else _)
      split
      · trivial
      · split
        · trivial
        · split
          · trivial
          · trivial

theorem previewMembership_roams {groups roles : List String}
    (hb : ∀ b ∈ bindings, P b.target.roomId) :
    Roams P (previewMembership m bindings groups roles) fun _ => True := by
  refine Prog.Minds.bind (.foldlM (fun b hmem preview => ?_) _) fun _ _ => trivial
  refine (expandTargets_roams (hb b hmem)).bind fun targets htargets => ?_
  exact .foldlM (fun r hr _ => .of_only (previewTarget_only (htargets r hr))) _

theorem kickFromAllMappedRooms_roams (hb : ∀ b ∈ bindings, P b.target.roomId) :
    Roams P (kickFromAllMappedRooms context keycloakId m adminSubject adminUsername
      bindings) fun _ => True := by
  refine Prog.Minds.bind (.foldlM (fun b hmem acc => ?_) _) fun _ _ => trivial
  obtain ⟨seen, outcome⟩ := acc
  show Prog.Minds _ _ _ (if _ then _ else _) _
  split
  · trivial
  · refine (expandTargets_roams (hb b hmem)).bind fun targets htargets => ?_
    refine Prog.Minds.bind (.foldlM (fun r hr _ => .of_only ?_) _) fun _ _ => trivial
    have hroom := htargets r (List.mem_reverse.1 hr)
    exact kickMappedRoom_only hroom hroom fun _ _ _ => trivial

/-- The sessions and the record have no rooms. -/
theorem revokeAuthSessions_roams {username : String} :
    Roams P (revokeAuthSessions context keycloakId m adminSubject adminUsername username)
      fun _ => True :=
  .of_only (revokeAuthSessions_only (fun _ => trivial) (fun _ => trivial)
    (fun _ _ => trivial) fun _ _ _ => trivial)

theorem fatalStep_roams {call : Async (Result Unit)} {action : String}
    {metadata : List (String × MetaValue)} (hcall : call.Only (Call.Visits P)) :
    Roams P (fatalStep keycloakId m adminSubject adminUsername call action metadata)
      fun _ => True :=
  .of_only (fatalStep_only hcall fun _ _ _ => trivial)

theorem getUser_roams : Roams P (Keycloak.getUser keycloakId) fun _ => True :=
  .of_only ⟨trivial, fun _ => trivial⟩

theorem getUserByUsername_roams {username : String} :
    Roams P (Mas.getUserByUsername username) fun _ => True :=
  .of_only ⟨trivial, fun _ => trivial⟩

theorem listBindings_roams {α : Type} {f : List PolicyBinding → Async (Result α)}
    (hf : ∀ bindings, (∀ b ∈ bindings, P b.target.roomId) →
      Roams P (f bindings) fun _ => True) :
    Roams P (listBindings.andThen f) fun _ => True := by
  refine Prog.Minds.andThen (.plain trivial (fun _ _ h => h) fun x hx a ha => ?_)
    (fun _ => trivial) hf
  subst ha
  exact hx

/-! ## The workflows -/

variable {homeserverDomain : String}

theorem disableUser_roams :
    Roams P (disableUser keycloakId adminSubject adminUsername homeserverDomain)
      fun _ => True :=
  Roams.next getUser_roams fun _ => revokeAuthSessions_roams.bind fun _ _ =>
    Roams.next (fatalStep_roams ⟨trivial, fun _ => trivial⟩) fun _ => trivial

theorem offboardUser_roams {synapse : Bool} (hb : ∀ b ∈ bindings, P b.target.roomId) :
    Roams P (offboardUser keycloakId adminSubject adminUsername homeserverDomain synapse
      bindings) fun _ => True := by
  refine Roams.next getUser_roams fun u => ?_
  refine revokeAuthSessions_roams.bind fun o₁ _ => ?_
  refine Prog.Minds.bind (.of_only ⟨trivial, fun _ => ⟨trivial, fun _ => trivial⟩⟩)
    fun o₂ _ => ?_
  refine Roams.next (fatalStep_roams ⟨trivial, fun _ => trivial⟩) fun _ => ?_
  have hrooms : ∀ o, Roams P (offboardRooms keycloakId adminSubject adminUsername synapse
      bindings (matrixId u.username homeserverDomain) o) fun _ => True := by
    intro o
    rw [offboardRooms]
    split
    · exact (kickFromAllMappedRooms_roams hb).bind fun _ _ => trivial
    · split
      · trivial
      · trivial
  refine (hrooms _).bind fun o₃ _ => getUserByUsername_roams.bind fun x _ => ?_
  cases x with
  | error e => trivial
  | ok found =>
      cases found with
      | none => trivial
      | some a =>
          exact Roams.next (fatalStep_roams ⟨trivial, fun _ => trivial⟩) fun _ => trivial

theorem reactivateUser_roams :
    Roams P (reactivateUser keycloakId adminSubject adminUsername homeserverDomain)
      fun _ => True := by
  refine Roams.next getUser_roams fun u => ?_
  refine Roams.next (fatalStep_roams ⟨trivial, fun _ => trivial⟩) fun _ => ?_
  refine Prog.Minds.bind (R := fun _ => True) ?_ fun _ _ => trivial
  refine getUserByUsername_roams.bind fun x _ => ?_
  cases x with
  | error e => trivial
  | ok found =>
      cases found with
      | none => trivial
      | some a =>
          show Prog.Minds _ _ _ (if (MasUser.deactivatedAt a).isSome then _ else _) _
          split
          · exact .of_only ⟨trivial, fun _ => ⟨trivial, fun _ => trivial⟩⟩
          · trivial

theorem deleteUser_roams :
    Roams P (deleteUser keycloakId adminSubject adminUsername homeserverDomain)
      fun _ => True := by
  refine Roams.next getUser_roams fun u => ?_
  refine Prog.Minds.bind (R := fun _ => True) ?_ fun found _ => ?_
  · refine getUserByUsername_roams.bind fun x _ => ?_
    cases x with
    | error e => trivial
    | ok found => trivial
  · obtain ⟨masUser, outcome⟩ := found
    refine Roams.next ?_ fun _ => .of_only ⟨trivial, fun x => ⟨trivial, fun y => ?_⟩⟩
    · cases masUser with
      | none => trivial
      | some a => exact fatalStep_roams ⟨trivial, fun _ => trivial⟩
    · cases y with
      | error e => trivial
      | ok v =>
          cases x with
          | ok v => trivial
          | error e =>
              show Prog.Only _ (if masUser.isSome then _ else _)
              split
              · trivial
              · trivial

end

/-! ## The handlers -/

section

variable {state : AppState} {admin : Admin}

theorem checked_roams {α : Type} {csrf : String} {p : Async (Result α)}
    (hp : Roams P p fun _ => True) : Roams P (admin.checked csrf p) fun _ => True := by
  rw [Admin.checked]
  split
  · trivial
  · exact hp

theorem facts_roams {α : Type} {keycloakId : String} {f : KeycloakUser →
    List KeycloakGroup → List KeycloakRole → List PolicyBinding → Async (Result α)}
    (hf : ∀ u groups roles bindings, (∀ b ∈ bindings, P b.target.roomId) →
      Roams P (f u groups roles bindings) fun _ => True) :
    Roams P ((Keycloak.getUser keycloakId).andThen fun u =>
      (Keycloak.getUserGroups keycloakId).andThen fun groups =>
      (Keycloak.getUserRoles keycloakId).andThen fun roles =>
      listBindings.andThen fun bindings => f u groups roles bindings)
      fun _ => True :=
  Roams.next getUser_roams fun u =>
    Roams.next (.of_only ⟨trivial, fun _ => trivial⟩) fun groups =>
    Roams.next (.of_only ⟨trivial, fun _ => trivial⟩) fun roles =>
    listBindings_roams fun bindings hb => hf u groups roles bindings hb

/-- A request goes to rooms the policy names, or Synapse does. -/
theorem UserRequest.run_roams (q : UserRequest) :
    Roams P (q.run state) fun _ => True := by
  obtain ⟨action, admin, k, csrf⟩ := q
  cases action with
  | disable => exact checked_roams (disableUser_roams.next fun _ => trivial)
  | offboard =>
      refine checked_roams (listBindings_roams fun bindings hb => ?_)
      exact (offboardUser_roams hb).next fun _ => trivial
  | reactivate => exact checked_roams (reactivateUser_roams.next fun _ => trivial)
  | delete => exact checked_roams (deleteUser_roams.next fun _ => trivial)
  | logout =>
      refine checked_roams (.of_only ⟨trivial, fun x => ⟨trivial, fun y => ?_⟩⟩)
      cases y with
      | error e => trivial
      | ok v => trivial
  | reconcile =>
      refine Roams.next ?_ fun _ => trivial
      rw [reconcileUser]
      split
      · trivial
      · split
        · trivial
        · exact facts_roams fun _ _ _ _ hb => reconcileMembership_roams hb
  | preview =>
      refine checked_roams ?_
      split
      · trivial
      · exact facts_roams fun _ _ _ _ hb => previewMembership_roams hb

end

/-! ## The servers keep the promises -/

section

variable {libs : HttpLibs} {labels : Family → String} {config : ClientConfig}
  {sites : Sites config} {state : AppState} {w₀ w w' : World} {domain k : String}

/-- Synapse and the policy name the rooms they named before. -/
theorem step_told_rooms {Allowed : World → Fault → Prop} {c : Call} {x : Answer c}
    (htidy : w₀.Tidy labels) (h : Unmoved w₀ w)
    (hs : (World.days Allowed).step w c x w') : ToldRooms Undotted c x := by
  cases c with
  | synapse c =>
      cases c with
      | getSpaceChildren r =>
          cases x with
          | error e => trivial
          | ok children =>
              cases World.step_ok hs (by simp)
              intro c hc
              rw [h.steady.children] at hc
              exact htidy.children r c hc
      | getJoinedRoomMembers r => trivial
      | forceJoinUser u r => trivial
      | kickUserFromRoom u r why => trivial
      | setPowerLevel r u level => trivial
  | policy c =>
      cases c with
      | listBindings =>
          cases x with
          | error e => trivial
          | ok bindings =>
              intro b hb
              rw [World.step_listBindings hs, h.steady.listed] at hb
              exact htidy.targets b hb
  | keycloak c => trivial
  | mas c => trivial
  | audit e => trivial

theorem KeycloakCall.safe {c : KeycloakCall} (hc : (Call.keycloak c).Concerns w₀ domain k)
    (hk : EndsSafely k) : ∀ e ∈ c.endpoint, e.Safe := by
  cases c with
  | searchUsers query max first => exact False.elim hc
  | countUsers query => exact False.elim hc
  | getUser id | deleteUser id | disableUser id | enableUser id =>
      obtain rfl : id = k := hc
      rintro e ⟨⟩
      exact ⟨trivial, hk⟩
  | getUserGroups id | logoutUser id =>
      obtain rfl : id = k := hc
      rintro e ⟨⟩
      exact ⟨trivial, hk.1, trivial, trivial⟩
  | getUserRoles id =>
      obtain rfl : id = k := hc
      rintro e ⟨⟩
      exact ⟨trivial, hk.1, trivial, trivial, trivial⟩

theorem AuthCall.safe {c : AuthCall} (hc : (Call.mas c).Concerns w₀ domain k)
    (htidy : w₀.Tidy labels) : ∀ e ∈ c.endpoint, e.Safe := by
  cases c with
  | getUserByUsername n =>
      rintro e ⟨⟩
      exact ⟨trivial, trivial, trivial, trivial, trivial, htidy.usernames k n hc, trivial⟩
  | listSessions id =>
      rintro e ⟨⟩
  | finishSession id type =>
      rintro e ⟨⟩
      have hraw := (htidy.sessions k id type hc).1
      -- A type that the client does not know has no path.
      show SafeParts (if type = "compat" then _ else if type = "oauth2" then _ else [])
      split
      · exact ⟨trivial, trivial, trivial, trivial, hraw, trivial, trivial⟩
      · split
        · exact ⟨trivial, trivial, trivial, trivial, hraw, trivial, trivial⟩
        · trivial
  | deactivateUser id | reactivateUser id =>
      rintro e ⟨⟩
      exact ⟨trivial, trivial, trivial, trivial, htidy.accounts k id hc, trivial, trivial⟩

theorem MatrixCall.safe {c : MatrixCall} (hr : (Call.synapse c).Visits Undotted) :
    ∀ e ∈ c.endpoint, e.Safe := by
  cases c with
  | forceJoinUser u r =>
      rintro e ⟨⟩
      exact ⟨trivial, trivial, trivial, trivial, hr, trivial⟩
  | getJoinedRoomMembers r | getSpaceChildren r | kickUserFromRoom u r why =>
      rintro e ⟨⟩
      exact ⟨trivial, trivial, trivial, trivial, hr, trivial, trivial⟩
  | setPowerLevel r u level =>
      rintro e ⟨⟩
      exact ⟨trivial, trivial, trivial, trivial, hr, trivial, trivial, trivial⟩

/-- What a request calls in a tidy world arrives. -/
theorem Call.Concerns.arrives {c : Call} (hc : c.Concerns w₀ domain k)
    (hr : c.Visits Undotted) (htidy : w₀.Tidy labels) (hk : EndsSafely k) :
    c.Arrives labels where
  ids := by
    cases c with
    | keycloak c => exact KeycloakCall.safe hc hk
    | mas c => exact AuthCall.safe hc htidy
    | synapse c => exact MatrixCall.safe hr
    | audit entry => rintro e ⟨⟩
    | policy c => rintro e ⟨⟩
  family := by
    rintro id f rfl
    exact (htidy.sessions k id _ hc).2 f rfl

/-- A request about a user is carried out by the clients against the servers. Where
the ids are tidy and every session list fits on its page, a redirect without a
warning stands for what it promises, in the world the servers are left with. -/
theorem promises_kept_over_wire
    (hlibs : ∀ e : Endpoint, libs.toUrlLibs.Documented (e.site sites)) {b b' : Backend}
    (htidy : b.world.Tidy labels) (hpaged : b.world.Paged labels) {q : UserRequest}
    (hk : EndsSafely q.keycloakId) {t : List (Event WireCall WireCall.Answer)}
    {out : q.action.Out}
    (hr : ((q.run state).through (carryOut libs config)).Runs t (.ok out))
    (hp : (Backend.env libs labels sites).Path b t b')
    (hplain : q.action.Plain q.keycloakId out) :
    q.action.Keeps state q.keycloakId b.world b'.world := by
  have hmine : Mine b.world state.homeserverDomain q.keycloakId (q.run state)
      fun _ => True := UserRequest.run_mine state q
  have hroams : Roams Undotted (q.run state) fun _ => True := q.run_roams
  have hcalls := (hmine.and hroams).wp (E := World.pagedDay labels)
    (fun w c x w' hw hstep => Unmoved.trans hw (step_unmoved hstep))
    (fun w c x w' hw hstep => ⟨step_told hw hstep, step_told_rooms htidy hw hstep⟩)
    (Unmoved.refl b.world)
  obtain ⟨T, hT, hpath⟩ := Prog.through_refines_demand (f := Backend.world)
    (fun c b hc => carryOut_refines hlibs c (hc.1.arrives hc.2 htidy hk) b) hcalls hr hp
  exact UserRequest.run_keeps hT (World.env_of_paged hpath hpaged) hplain

end

/-! ### Ada is disabled, with a token that has expired on the way -/

abbrev phoneEnv : Env WireCall WireCall.Answer Backend :=
  Backend.env phoneHttp Family.tag rootSites

/-- What the clients and the servers make of a call together. -/
abbrev phoneServes : Env Call Answer Backend :=
  phoneEnv.serving (carryOut phoneHttp rootConfig)

/-- A request with the token that is in the cache. -/
def exchanged (saw : (c : TokenCall) → c.Answer → Event WireCall WireCall.Answer)
    (resp : Response) : List (Event WireCall WireCall.Answer) :=
  [saw .lock (), saw .readCache (some ⟨"t", 1⟩), saw .now (0 : Nat), saw .unlock (),
    saw (.send "t") (), saw .response (.ok resp)]

def adaRequest : Outgoing :=
  ⟨⟨.get, KeycloakClient.adminUrl rootConfig "/users/kc-1"⟩, [], none⟩

theorem adaRecord_served : phoneServes.step phoneBackend (.keycloak (.getUser "kc-1"))
    (.ok ⟨"kc-1", "ada", true⟩) phoneBackend := by
  have hread := readAs_of_safe [] none (phoneHttp_documented (.getUser "kc-1")) rfl
    (by decide)
  have hdocument : ObjectOf UserRepresentation adaDocument ⟨"kc-1", "ada", true⟩ :=
    ⟨_, rfl, by decide, rfl, rfl, rfl, trivial, trivial, trivial, ⟨true, rfl⟩, trivial,
      .inl rfl⟩
  have hdone : phoneEnv.step phoneBackend (.keycloak adaRequest .response)
      (.ok ⟨200, adaBody⟩) phoneBackend :=
    keycloak_step hread ⟨⟨.ok _, ⟨⟨200, adaBody⟩, adaDocument, rfl, by decide, rfl,
      hdocument⟩, World.step_serve onePhone (.keycloak (.getUser "kc-1")), rfl⟩, fun _ => rfl⟩
  exact ⟨exchanged (fun c x => ⟨.keycloak adaRequest c, x⟩) ⟨200, adaBody⟩,
    ⟨_, rfl, _, rfl, _, rfl, _, rfl, _, rfl, _, rfl, rfl⟩,
    ⟨_, rfl, _, rfl, _, rfl, _, rfl, _, rfl, _, hdone, rfl⟩⟩

def accountRequest : Outgoing :=
  ⟨⟨.get, MasClient.url rootConfig "/api/admin/v1/users/by-username/ada"⟩, [], none⟩

theorem adaAccount_served : phoneServes.step phoneBackend (.mas (.getUserByUsername "ada"))
    (.ok (some ⟨"mas-1", "ada", none⟩)) phoneBackend := by
  have hread := mas_readAs phoneHttp_documented rfl
    (by decide : (Endpoint.getUserByUsername "ada").Safe) rfl
  have hdocument : ObjectOf MasUserDocument accountDocument ⟨"mas-1", "ada", none⟩ :=
    ⟨_, rfl, by decide, _, rfl, by decide, rfl, _, rfl, by decide, rfl, .inr rfl⟩
  have hdone : phoneEnv.step phoneBackend (.mas accountRequest .response)
      (.ok ⟨200, accountBody⟩) phoneBackend :=
    mas_step hread ⟨.ok (some ⟨"mas-1", "ada", none⟩), ⟨⟨200, accountBody⟩, accountDocument,
      rfl, by decide, rfl, hdocument⟩,
      World.step_serve onePhone (.mas (.getUserByUsername "ada")), rfl⟩
  exact ⟨exchanged (fun c x => ⟨.mas accountRequest c, x⟩) ⟨200, accountBody⟩,
    ⟨_, rfl, _, rfl, _, rfl, _, rfl, _, rfl, _, rfl, rfl⟩,
    ⟨_, rfl, _, rfl, _, rfl, _, rfl, _, rfl, _, hdone, rfl⟩⟩

theorem entry_served {w : World} {entry : AuditEntry} (h : ∀ r u, w.power r u = none) :
    phoneServes.step (plainBackend w h) (.audit entry) (.ok ())
      (plainBackend (w.record entry) h) :=
  ⟨[⟨.direct (.audit entry), .ok ()⟩], ⟨_, rfl, rfl⟩,
    ⟨plainBackend (w.record entry) h, ⟨World.step_serve w (.audit entry), rfl⟩, rfl⟩⟩

def disableRequest : Outgoing :=
  ⟨⟨.put, KeycloakClient.adminUrl rootConfig "/users/kc-1"⟩, [],
    some (KeycloakClient.enabledBody false)⟩

/-- The token in the cache is turned away, and a new one is fetched. -/
def tokenExpired : List (Event WireCall WireCall.Answer) :=
  let saw (c : TokenCall) (x : c.Answer) : Event WireCall WireCall.Answer :=
    ⟨.keycloak disableRequest c, x⟩
  [saw .lock (), saw .readCache (some ⟨"t", 1⟩), saw .now (0 : Nat), saw .unlock (),
    saw (.send "t") (), saw .response (.ok ⟨401, ""⟩),
    saw .lock (), saw (.store none) (), saw .unlock (),
    saw .lock (), saw .readCache none, saw .requestToken (),
    saw .tokenResponse (.ok ⟨"new", 30⟩), saw .now (2 : Nat),
    saw (.store (some ⟨"new", 2⟩)) (), saw .unlock (),
    saw (.send "new") (), saw .response (.ok ⟨204, ""⟩)]

theorem tokenExpired_runs : (carryOut phoneHttp rootConfig
    (.keycloak (.disableUser "kc-1"))).Runs tokenExpired (.ok ()) :=
  ⟨_, rfl, _, rfl, _, rfl, _, rfl, _, rfl, _, rfl, _, rfl, _, rfl, _, rfl, _, rfl,
    _, rfl, _, rfl, _, rfl, _, rfl, _, rfl, _, rfl, _, rfl, _, rfl, rfl⟩

/-- The try with the old token is no disable, and the other is. -/
theorem disable_served {w w' : World} (h : ∀ r u, w.power r u = none)
    (hserve : w.serve (.keycloak (.disableUser "kc-1")) = (.ok (), w'))
    (h' : ∀ r u, w'.power r u = none) :
    phoneServes.step (plainBackend w h) (.keycloak (.disableUser "kc-1")) (.ok ())
      (plainBackend w' h') := by
  have hread := readAs_of_safe [] (some (KeycloakClient.enabledBody false))
    (phoneHttp_documented (.disableUser "kc-1")) rfl (by decide)
  have hrefused : phoneEnv.step (plainBackend w h) (.keycloak disableRequest .response)
      (.ok ⟨401, ""⟩) (plainBackend w h) := by
    refine keycloak_step hread ⟨⟨.error (.auth ""), ?_, World.step_fails _ _ _, rfl⟩,
      fun _ => rfl⟩
    intro resp hresp
    cases hresp
    decide
  have hdone : phoneEnv.step (plainBackend w h) (.keycloak disableRequest .response)
      (.ok ⟨204, ""⟩) (plainBackend w' h') := by
    refine keycloak_step hread ⟨⟨.ok (), ⟨⟨204, ""⟩, rfl, by decide⟩,
      ⟨.none, trivial, hserve⟩, rfl⟩, ?_⟩
    intro h401
    obtain ⟨resp, hresp, hstatus⟩ := h401
    cases hresp
    exact absurd hstatus (by decide)
  exact ⟨tokenExpired, tokenExpired_runs, _, rfl, _, rfl, _, rfl, _, rfl, _, rfl,
    _, hrefused, _, rfl, _, rfl, _, rfl, _, rfl, _, rfl, _, rfl, _, rfl, _, rfl, _, rfl,
    _, rfl, _, rfl, _, hdone, rfl⟩

def adaShutOut : World :=
  (((onePhone.finish "s-1" "compat").record phoneEntry).setEnabled "kc-1" false).record
    disabledEntry

theorem disable_serves : phoneServes.Path phoneBackend
    [⟨.keycloak (.getUser "kc-1"), .ok ⟨"kc-1", "ada", true⟩⟩,
      ⟨.mas (.getUserByUsername "ada"), .ok (some ⟨"mas-1", "ada", none⟩)⟩,
      ⟨.mas (.listSessions "mas-1"), .ok ⟨[phone], []⟩⟩,
      ⟨.mas (.finishSession "s-1" "compat"), .ok ()⟩,
      ⟨.audit phoneEntry, .ok ()⟩,
      ⟨.keycloak (.disableUser "kc-1"), .ok ()⟩,
      ⟨.audit disabledEntry, .ok ()⟩]
    (plainBackend adaShutOut fun _ _ => rfl) :=
  ⟨_, adaRecord_served, _, adaAccount_served, _, ⟨_, bothFetched_runs, bothFetched_path⟩,
    _, ⟨_, phoneFinished_runs, phoneFinished_path⟩, _, entry_served _,
    _, disable_served _ rfl fun _ _ => rfl, _, entry_served _, rfl⟩

theorem onePhone_tidy : onePhone.Tidy Family.tag where
  usernames k n hn := by
    obtain ⟨u, hu, rfl⟩ := hn
    have hall : ∀ u ∈ twoPeople.realm.rows, u.username ≠ "." ∧ u.username ≠ ".." := by
      decide
    exact hall u (Directory.byId_some.1 hu).1
  accounts k id ha := by
    obtain ⟨n, a, -, ha, rfl⟩ := ha
    have hmem : a ∈ [⟨"mas-1", "ada", none⟩] := (Directory.byName_some.1 ha).1
    rw [List.mem_singleton.1 hmem]
    decide
  sessions k id type hs := by
    obtain ⟨i, -, s, hs, rfl, rfl⟩ := hs
    rw [(onePhone_sessions hs).2]
    exact ⟨by decide, fun _ _ => rfl⟩
  targets b hb := absurd hb List.not_mem_nil
  children r c hc := absurd hc List.not_mem_nil

theorem ada_shut_out_over_wire : adaShutOut.Disabled "kc-1" ∧
    adaShutOut.SessionFree "ada" := by
  have hruns : ((disableOf "kc-1").run ⟨"example.org", true⟩).Runs _ (.ok "/users/kc-1") :=
    disableMixed_runs true
  obtain ⟨t, hr, hp⟩ := hruns.through disable_serves
  obtain ⟨u, hu, hdisabled, hfree⟩ := promises_kept_over_wire phoneHttp_documented
    onePhone_tidy onePhone_paged ⟨by decide, by decide⟩ hr hp rfl
  obtain rfl : ⟨"kc-1", "ada", true⟩ = u := Option.some.inj hu
  exact ⟨hdisabled, hfree⟩

end MatrixIdentityAdmin.Ref
