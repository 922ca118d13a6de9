import MatrixIdentityAdmin.Proofs.Rest
import MatrixIdentityAdmin.Proofs.Together

/-!
# Over the wire

Every call of the service, carried out by its client against the servers, is
one call of the world. A token that cannot be had is a call that fails; a 401 is
a call that was not made, so that the second try is the first that counts; the
two requests for a power level are one call, because only the second of them
changes anything; and the two fetches of a session list only look, so that it does
not matter which of them is ahead (`Prog.both_wp`). The list may be short: MAS is
asked for one page of each family.

So a handler can be reasoned about as if its calls were answered by the world,
and what was proved of it that way holds of the requests it sends.
-/

namespace MatrixIdentityAdmin.Ref

open MatrixIdentityAdmin.Lib
open KeycloakClient (Response TokenCall)
open MasClient (Family)

/-! ## The token -/

namespace KeycloakClient

variable {σ : Type} {E : Env TokenCall TokenCall.Answer σ}

theorem adminToken_only : adminToken.Only (· ≠ .response) := by
  have hfetch : fetchToken.Only (· ≠ .response) := by
    refine ⟨by decide, fun _ => ⟨by decide, fun r => ?_⟩⟩
    cases r with
    | error e => exact ⟨by decide, fun _ => trivial⟩
    | ok resp => exact ⟨by decide, fun now => ⟨nofun, fun _ => ⟨by decide, fun _ => trivial⟩⟩⟩
  refine ⟨by decide, fun _ => ⟨by decide, fun cached => ?_⟩⟩
  cases cached with
  | none => exact hfetch
  | some cached =>
      refine ⟨by decide, fun now => ?_⟩
      exact Prog.Only.ite (fun _ => ⟨by decide, fun _ => trivial⟩) fun _ => hfetch

theorem clearCachedToken_only : clearCachedToken.Only (· ≠ .response) :=
  ⟨by decide, fun _ => ⟨by decide, fun _ => ⟨by decide, fun _ => trivial⟩⟩⟩

/-- Only a response changes anything. -/
structure Inert (E : Env TokenCall TokenCall.Answer σ) : Prop where
  pre : ∀ s c, E.pre s c
  step : ∀ s c x s', c ≠ .response → E.step s c x s' → s' = s

theorem Inert.keeps {α : Type} (hE : Inert E) {p : Task α} (hp : p.Only (· ≠ .response))
    (s : σ) : p.wp E s fun _ s' => s' = s :=
  hp.wp (fun s' => s' = s) (fun s' c _ _ => hE.pre s' c)
    (fun s₁ c x s' hc hs hstep => (hE.step s₁ c x s' hc hstep).trans hs) rfl

/-- There was no token, or there was one response. -/
def Answered (E : Env TokenCall TokenCall.Answer σ) (s : σ)
    (x : Except AppError Response) (s' : σ) : Prop :=
  (∃ e, x = .error e ∧ s' = s) ∨ E.step s .response x s'

theorem sendAdminRequestOnce_wp (hE : Inert E) (s : σ) :
    sendAdminRequestOnce.wp E s (Answered E s) := by
  refine Prog.wp_then (hE.keeps adminToken_only s) ?_ ?_
  · intro e s' hs
    exact .inl ⟨e, rfl, hs⟩
  · intro token s' hs
    subst hs
    refine ⟨hE.pre _ _, fun _ s₁ hsend => ⟨hE.pre _ _, fun x s₂ hresponse => ?_⟩⟩
    obtain rfl := hE.step _ _ _ _ (by nofun) hsend
    exact .inr hresponse

/-- If a 401 means that nothing was done, the second try is the only one. -/
theorem sendAdminRequest_wp (hE : Inert E)
    (h401 : ∀ s x s', E.step s .response x s' → HasStatus 401 x → s' = s) (s : σ) :
    sendAdminRequest.wp E s (Answered E s) := by
  refine Prog.wp_then (sendAdminRequestOnce_wp hE s) (fun e s' h => h) ?_
  intro resp s' h
  obtain ⟨e, he, -⟩ | h := h
  · cases he
  · by_cases hstatus : resp.status ≠ unauthorized
    · rw [if_pos hstatus]
      exact .inr h
    · rw [if_neg hstatus]
      rw [not_not] at hstatus
      obtain rfl := h401 _ _ _ h ⟨resp, rfl, hstatus⟩
      refine Prog.wp_seq (hE.keeps clearCachedToken_only s') fun _ s₁ hs => ?_
      subst hs
      exact sendAdminRequestOnce_wp hE s₁

end KeycloakClient

/-! ## The calls of Keycloak -/

section

variable {libs : HttpLibs} {labels : Family → String} {config : ClientConfig}
  {sites : Sites config} {b : Backend} {inc : Incoming} {out : Outgoing}

theorem keycloak_inert : KeycloakClient.Inert
    ((Backend.env libs labels sites).along (WireCall.keycloak out)) where
  pre _ _ := trivial
  step s c x s' hc hstep := by
    cases c with
    | response => exact absurd rfl hc
    | _ => exact hstep

theorem mas_inert : KeycloakClient.Inert
    ((Backend.env libs labels sites).along (WireCall.mas out)) where
  pre _ _ := trivial
  step s c x s' hc hstep := by
    cases c with
    | response => exact absurd rfl hc
    | _ => exact hstep

/-- Who is turned away has had nothing done. -/
theorem keycloak_turned_away {x : Except AppError Response} {b' : Backend}
    (h : b.keycloak libs inc x b') (h401 : HasStatus 401 x) : b' = b := by
  rw [Backend.keycloak] at h
  split at h
  · exact h.2 h401
  · exact h.2

theorem keycloak_send_wp (hread : out.ReadAs libs.toUrlLibs (Backend.keycloakBase sites) inc) :
    (KeycloakClient.send out).wp (Backend.env libs labels sites) b fun x b' =>
      (∃ e, x = .error e ∧ b' = b) ∨ b.keycloak libs inc x b' := by
  refine Prog.wp_lift.2 (Prog.wp_mono ?_ (KeycloakClient.sendAdminRequest_wp keycloak_inert ?_ b))
  · intro x b' h
    exact h.imp_right fun hstep => hstep inc hread
  · intro s x s' hstep h401
    exact keycloak_turned_away (hstep inc hread) h401

theorem mas_send_wp (hread : out.ReadAs libs.toUrlLibs sites.mas.path inc) :
    (MasClient.send out).wp (Backend.env libs labels sites) b fun x b' =>
      (∃ e, x = .error e ∧ b' = b) ∨ b.mas libs labels inc x b' := by
  refine Prog.wp_lift.2 (Prog.wp_mono ?_ (KeycloakClient.sendAdminRequestOnce_wp mas_inert b))
  intro x b' h
  exact h.imp_right fun hstep => hstep inc hread

/-- A request that is read as a call, and a client that conveys its answer. -/
theorem keycloak_wp {c : KeycloakCall} {g : Response → Result c.Ret}
    (hread : out.ReadAs libs.toUrlLibs (Backend.keycloakBase sites) inc)
    (hasks : Keycloak.asks inc = some c)
    (hg : ∀ x y, c.Means libs x y → Conveys y (x.bind g)) :
    ((KeycloakClient.send out).andThen fun resp => pure (g resp)).wp
      (Backend.env libs labels sites) b
      fun z b' => World.env.step b.world (.keycloak c) z b'.world := by
  refine Prog.wp_andThen_pure (Prog.wp_mono ?_ (keycloak_send_wp hread))
  intro x b' h
  rcases h with ⟨e, rfl, rfl⟩ | h
  · exact World.step_fails _ _ _
  · rw [Backend.keycloak, hasks] at h
    obtain ⟨⟨y, hmeans, hstep, -⟩, -⟩ := h
    exact World.step_conveys hstep (hg x y hmeans)

theorem mas_wp {c : AuthCall} {g : Response → Result c.Ret}
    (hread : out.ReadAs libs.toUrlLibs sites.mas.path inc)
    (hasks : Mas.asks labels inc = some (.call c))
    (hg : ∀ x y, c.Means libs x y → Conveys y (x.bind g)) :
    ((MasClient.send out).andThen fun resp => pure (g resp)).wp
      (Backend.env libs labels sites) b
      fun z b' => World.env.step b.world (.mas c) z b'.world := by
  refine Prog.wp_andThen_pure (Prog.wp_mono ?_ (mas_send_wp hread))
  intro x b' h
  rcases h with ⟨e, rfl, rfl⟩ | h
  · exact World.step_fails _ _ _
  · rw [Backend.mas, hasks] at h
    obtain ⟨y, hmeans, hstep, -⟩ := h
    exact World.step_conveys hstep (hg x y hmeans)

theorem synapse_send_wp (hread : out.ReadAs libs.toUrlLibs sites.synapse.path inc) :
    (SynapseClient.send out).wp (Backend.env libs labels sites) b fun x b' =>
      b.synapse libs inc x b' :=
  ⟨trivial, fun _ _ hstep => hstep inc hread⟩

theorem synapse_wp {c : MatrixCall} {g : Response → Result c.Ret}
    (hread : out.ReadAs libs.toUrlLibs sites.synapse.path inc)
    (hasks : Synapse.asks inc = some (.call c))
    (hg : ∀ x y, c.Means libs x y → Conveys y (x.bind g)) :
    ((SynapseClient.send out).andThen fun resp => pure (g resp)).wp
      (Backend.env libs labels sites) b
      fun z b' => World.env.step b.world (.synapse c) z b'.world := by
  refine Prog.wp_andThen_pure (Prog.wp_mono ?_ (synapse_send_wp hread))
  intro x b' h
  rw [Backend.synapse, hasks] at h
  obtain ⟨y, hmeans, hstep, -⟩ := h
  exact World.step_conveys hstep (hg x y hmeans)

/-! ### What is read -/

theorem readParam_toString (n : UInt32) : readParam (some (toString n)) = some n := by
  have hdigits : (toString n).toList = Nat.toDigits 10 n.toNat := Nat.toList_repr
  have hall : (Nat.toDigits 10 n.toNat).all Char.isDigit = true :=
    List.all_eq_true.2 fun c hc =>
      Nat.isDigit_of_mem_toDigits (by decide) (Nat.le_refl 10) hc
  have hlt : n.toNat < UInt32.size := n.toNat_lt
  have hn : n.toNat.toUInt32 = n := UInt32.ofNat_toNat
  simp only [readParam, Option.bind_eq_bind, Option.bind_some, hdigits,
    Nat.ofDigitChars_ten_toDigits]
  rw [if_pos ⟨Nat.toDigits_ne_nil, hall, hlt⟩, hn]

theorem asks_search (query : String) (max first : UInt32) :
    Keycloak.asks ⟨.get, ["users"],
      [("search", query), ("max", toString max), ("first", toString first)], none⟩ =
      some (.searchUsers query max first) := by
  have hmax := readParam_toString max
  have hfirst := readParam_toString first
  change (do
    let max ← readParam (some (toString max))
    let first ← readParam (some (toString first))
    some (KeycloakCall.searchUsers query max first)) = _
  rw [hmax, hfirst]
  rfl

theorem asks_count (query : String) :
    Keycloak.asks ⟨.get, ["users", "count"],
      if query = "" then [] else [("search", query)], none⟩ = some (.countUsers query) := by
  by_cases h : query = ""
  · rw [if_pos h, h]
    rfl
  · rw [if_neg h]
    rfl

theorem asks_user {id : String} (h : id ≠ "count") :
    Keycloak.asks ⟨.get, ["users", id], [], none⟩ = some (.getUser id) := by
  simp [Keycloak.asks]

theorem asks_groups (id : String) :
    Keycloak.asks ⟨.get, ["users", id, "groups"], [], none⟩ = some (.getUserGroups id) := by
  simp [Keycloak.asks]

theorem asks_roles (id : String) :
    Keycloak.asks ⟨.get, ["users", id, "role-mappings", "realm"], [], none⟩ =
      some (.getUserRoles id) := by
  simp [Keycloak.asks]

/-- A document of Keycloak at a path without ids. -/
theorem readAs_fixed (hlibs : libs.toUrlLibs.Documented sites.keycloak)
    (segments : List String) (last path : String) (query : List (String × String))
    (hpath : path = slashed (segments ++ [last]))
    (hsafe : ∀ s ∈ segments ++ [last], RawSafe s)
    (hend : Url.trimEnd last.toList = last.toList) :
    (⟨⟨.get, KeycloakClient.adminUrl config path⟩, query, none⟩ : Outgoing).ReadAs
      libs.toUrlLibs (Backend.keycloakBase sites) ⟨.get, segments ++ [last], query, none⟩ where
  reaches := by
    have hbase : ∀ s ∈ Backend.keycloakBase sites, RawSafe s :=
      (Endpoint.base_safe : ∀ s ∈ (Endpoint.getUser "").base sites, RawSafe s)
    have hall : ∀ s ∈ (Backend.keycloakBase sites ++ segments) ++ [last], RawSafe s := by
      intro s hs
      rw [List.append_assoc, List.mem_append] at hs
      exact hs.elim (hbase s) (hsafe s)
    have hurl : KeycloakClient.adminUrl config path =
        sites.keycloak.origin ++
          slashed ((Backend.keycloakBase sites ++ segments) ++ [last]) := by
      have hk := sites.keycloakUrl
      rw [Site.url] at hk
      rw [hpath, List.append_assoc, slashed_append (Backend.keycloakBase sites),
        Backend.keycloakBase, slashed_append sites.keycloak.path, ← String.toList_inj]
      generalize slashed (segments ++ [last]) = rest
      simp [toString, slashed_cons, slashed_nil, KeycloakClient.adminUrl, hk]
    have hreach := addresses_slashed hlibs hall hend
    rw [← hurl, List.append_assoc] at hreach
    exact hreach
  method := rfl
  query := rfl
  json := rfl

/-- Whoever takes a count for a user finds none. -/
theorem count_is_no_user {x : Except AppError Response} {y : Result UInt32}
    (h : MeansJson libs (fun v n => v = .number n.toNat) x y) :
    ∃ e, x.bind (readJson libs "keycloak" KeycloakUser.fromValue) = .error e := by
  cases x with
  | error e => exact ⟨e, rfl⟩
  | ok resp =>
      refine readJson_error ?_
      cases y with
      | ok n =>
          obtain ⟨_, v, hresp, -, hbody, rfl⟩ := h
          cases hresp
          rw [hbody]
          exact .inr rfl
      | error e =>
          refine (h resp rfl).imp_right fun hnone => ?_
          rw [hnone]
          rfl

/-- A user called `count` is asked for where the users are counted. -/
theorem getUser_count_wp
    (hread : out.ReadAs libs.toUrlLibs (Backend.keycloakBase sites)
      ⟨.get, ["users", "count"], [], none⟩) :
    ((KeycloakClient.send out).andThen fun resp =>
      pure (readJson libs "keycloak" KeycloakUser.fromValue resp)).wp
      (Backend.env libs labels sites) b
      fun z b' => World.env.step b.world (.keycloak (.getUser "count")) z b'.world := by
  refine Prog.wp_andThen_pure (Prog.wp_mono ?_ (keycloak_send_wp hread))
  intro x b' h
  rcases h with ⟨e, rfl, rfl⟩ | h
  · exact World.step_fails _ _ _
  · obtain ⟨⟨y, hmeans, hstep, -⟩, -⟩ := h
    obtain ⟨e, he⟩ := count_is_no_user hmeans
    have hworld : b'.world = b.world := by
      generalize b'.world = w' at hstep
      cases World.step_change hstep
      rfl
    rw [he, hworld]
    exact World.step_fails _ _ _

/-- What is sent to an endpoint of Keycloak is read there as what was meant. -/
theorem keycloak_readAs (hlibs : ∀ e : Endpoint, libs.toUrlLibs.Documented (e.site sites))
    {e : Endpoint} {req : HttpRequest} (json : Option Value) (hservice : e.service = .keycloak)
    (he : e.Safe) (hreq : e.request libs.toUrlLibs config = .ok req) :
    (⟨req, [], json⟩ : Outgoing).ReadAs libs.toUrlLibs (Backend.keycloakBase sites)
      ⟨req.method, e.parts.map Part.value, [], json⟩ := by
  have hbase : e.base sites = Backend.keycloakBase sites := by
    rw [Endpoint.base, hservice]
    rfl
  rw [← hbase]
  exact readAs_of_safe [] _ (hlibs e) hreq he

theorem keycloak_refines (hlibs : ∀ e : Endpoint, libs.toUrlLibs.Documented (e.site sites))
    (c : KeycloakCall) (hc : ∀ e ∈ c.endpoint, e.Safe) :
    (KeycloakClient.carryOut libs config c).wp (Backend.env libs labels sites) b
      fun z b' => World.env.step b.world (.keycloak c) z b'.world := by
  have hread : ∀ (e : Endpoint) (req : HttpRequest) (json : Option Value),
      e.service = .keycloak → e ∈ c.endpoint → e.request libs.toUrlLibs config = .ok req →
      (⟨req, [], json⟩ : Outgoing).ReadAs libs.toUrlLibs (Backend.keycloakBase sites)
        ⟨req.method, e.parts.map Part.value, [], json⟩ := fun e req json hservice he =>
    keycloak_readAs hlibs json hservice (hc e he)
  cases c with
  | searchUsers query max first =>
      have hread := readAs_fixed (hlibs (.getUser "")) [] "users" "/users"
        [("search", query), ("max", toString max), ("first", toString first)]
        (by decide) (by decide) (by decide)
      exact keycloak_wp hread (asks_search query max first) fun x y h =>
        readList_conveys (fun _ _ hu => KeycloakUser.fromValue_of hu) h
  | countUsers query =>
      have hread := readAs_fixed (hlibs (.getUser "")) ["users"] "count" "/users/count"
        (if query = "" then [] else [("search", query)]) (by decide) (by decide)
        (by decide)
      exact keycloak_wp hread (asks_count query) fun x y h =>
        readJson_conveys (fun v n hv => hv ▸ Value.readU32_of n) h
  | getUser id =>
      have hread := hread (.getUser id) _ none rfl rfl rfl
      by_cases hcount : id = "count"
      · subst hcount
        exact getUser_count_wp hread
      · exact keycloak_wp hread (asks_user hcount) fun x y h =>
          readJson_conveys (fun _ _ hu => KeycloakUser.fromValue_of hu) h
  | getUserGroups id =>
      exact keycloak_wp (hread (.getUserGroups id) _ none rfl rfl rfl) (asks_groups id) fun x y h =>
        readList_conveys (fun _ _ hg => KeycloakGroup.fromValue_of hg) h
  | getUserRoles id =>
      exact keycloak_wp (hread (.getUserRoles id) _ none rfl rfl rfl) (asks_roles id) fun x y h =>
        readList_conveys (fun _ _ hr => KeycloakRole.fromValue_of hr) h
  | logoutUser id =>
      exact keycloak_wp (hread (.logoutUser id) _ none rfl rfl rfl) rfl fun x y h =>
        readStatus_conveys h
  | deleteUser id =>
      exact keycloak_wp (hread (.deleteUser id) _ none rfl rfl rfl) rfl fun x y h =>
        readStatus_conveys h
  | disableUser id =>
      exact keycloak_wp (hread (.disableUser id) _
        (some (KeycloakClient.enabledBody false)) rfl rfl rfl) rfl fun x y h =>
        readStatus_conveys h
  | enableUser id =>
      exact keycloak_wp (hread (.enableUser id) _
        (some (KeycloakClient.enabledBody true)) rfl rfl rfl) rfl fun x y h =>
        readStatus_conveys h

/-! ## The calls of MAS -/

theorem direct_wp {c : Call} :
    (Prog.send (WireCall.direct c) : Wire (Answer c)).wp (Backend.env libs labels sites) b
      fun z b' => World.env.step b.world c z b'.world :=
  ⟨trivial, fun _ _ hstep => hstep.1⟩

/-- A token that is asked for by itself changes nothing. -/
theorem token_wp : (MasClient.exchange libs .adminToken).wp (Backend.env libs labels sites) b
    fun _ b' => b' = b :=
  Prog.wp_lift.2 (KeycloakClient.Inert.keeps ⟨fun _ _ => trivial, fun _ _ _ _ _ h => h⟩
    KeycloakClient.adminToken_only b)

theorem request_wp {token : String} (hread : out.ReadAs libs.toUrlLibs sites.mas.path inc) :
    (MasClient.request token out).wp (Backend.env libs labels sites) b fun x b' =>
      b.mas libs labels inc x b' := by
  refine Prog.wp_lift.2 ⟨trivial, fun _ b₁ hsend => ⟨trivial, fun x b₂ hresponse => ?_⟩⟩
  obtain rfl : b₁ = b := hsend
  exact hresponse inc hread

/-- What is sent to an endpoint of MAS is read there as what was meant. -/
theorem mas_readAs (hlibs : ∀ e : Endpoint, libs.toUrlLibs.Documented (e.site sites))
    {e : Endpoint} {req : HttpRequest} (hservice : e.service = .mas) (he : e.Safe)
    (hreq : e.request libs.toUrlLibs config = .ok req) :
    (⟨req, [], none⟩ : Outgoing).ReadAs libs.toUrlLibs sites.mas.path
      ⟨req.method, e.parts.map Part.value, [], none⟩ := by
  have hbase : e.base sites = sites.mas.path := by
    rw [Endpoint.base, hservice]
  rw [← hbase]
  exact readAs_of_safe [] _ (hlibs e) hreq he

/-! ### The end of a session -/

theorem asks_finish {id : String} {f : Family} (h : labels f = f.tag) :
    Mas.asks labels ⟨.post, (Endpoint.finishSession id f.tag).parts.map Part.value, [],
      none⟩ = some (.call (.finishSession id f.tag)) := by
  rw [← h]
  cases f with
  | compat =>
      rw [show labels .compat = "compat" from h]
      simp [Endpoint.parts, Part.value, Mas.asks, Mas.familyAt, Family.endpoint,
        show labels .compat = "compat" from h]
  | oauth2 =>
      rw [show labels .oauth2 = "oauth2" from h]
      simp [Endpoint.parts, Part.value, Mas.asks, Mas.familyAt, Family.endpoint,
        show labels .oauth2 = "oauth2" from h]

/-- A session of a type that names no family is not ended, and one that names one is
ended there. -/
theorem finishSession_wp (hlibs : ∀ e : Endpoint, libs.toUrlLibs.Documented (e.site sites))
    {id type : String} (hsafe : (Endpoint.finishSession id type).Safe)
    (hfamily : ∀ f, type = Family.tag f → labels f = f.tag) :
    ((MasClient.finishSession config id type).through (MasClient.exchange libs)).wp
      (Backend.env libs labels sites) b
      fun z b' => World.env.step b.world (.mas (.finishSession id type)) z b'.world := by
  rw [MasClient.finishSession, Prog.through_andThen, MasClient.adminToken, Prog.through_send]
  refine Prog.wp_then token_wp ?_ ?_
  · intro e b' hb
    subst hb
    exact World.step_fails _ _ _
  · intro token b' hb
    subst hb
    cases hpath : MasClient.finishPath id type with
    | error e => exact World.step_fails _ _ _
    | ok path =>
        have hreq : (Endpoint.finishSession id type).request libs.toUrlLibs config =
            .ok ⟨.post, MasClient.url config path⟩ := by
          rw [Endpoint.request_finishSession, hpath]
          rfl
        have hasks : Mas.asks labels ⟨.post,
            (Endpoint.finishSession id type).parts.map Part.value, [], none⟩ =
            some (.call (.finishSession id type)) := by
          obtain ⟨rfl | rfl, -⟩ := Endpoint.request_finishSession_ok hreq
          · exact asks_finish (hfamily .compat rfl)
          · exact asks_finish (hfamily .oauth2 rfl)
        have hread := mas_readAs hlibs rfl hsafe hreq
        show ((MasClient.post (MasClient.url config path) token).through
          (MasClient.exchange libs)).wp _ _ _
        rw [MasClient.post, Prog.through_send]
        refine Prog.wp_andThen_pure (Prog.wp_mono ?_ (request_wp hread))
        intro x b₁ h
        rw [Backend.mas, hasks] at h
        obtain ⟨y, hmeans, hstep, -⟩ := h
        exact World.step_conveys hstep (readStatus_conveys hmeans)

/-! ### The lists of sessions -/

theorem asks_sessions {id : String} {f : Family} :
    Mas.asks labels ⟨.get, ["api", "admin", "v1", f.endpoint], MasClient.sessionQuery id,
      none⟩ = some (.sessions f id 50) := by
  have hfifty : readParam (some "50") = some 50 := readParam_toString 50
  have hfamily : Mas.familyAt f.endpoint = some f := by
    cases f with
    | compat => rfl
    | oauth2 => rfl
  simp [Mas.asks, MasClient.sessionQuery, Incoming.param, List.lookup_cons, hfifty, hfamily]

/-- The request for a list, as it is read. -/
theorem sessions_readAs (hlibs : ∀ e : Endpoint, libs.toUrlLibs.Documented (e.site sites))
    {id : String} {f : Family} :
    (⟨⟨.get, f.listUrl config⟩, MasClient.sessionQuery id, none⟩ : Outgoing).ReadAs
      libs.toUrlLibs sites.mas.path
      ⟨.get, ["api", "admin", "v1", f.endpoint], MasClient.sessionQuery id, none⟩ where
  reaches := by
    have hall : ∀ s ∈ (sites.mas.path ++ ["api", "admin", "v1"]) ++ [f.endpoint],
        RawSafe s := by
      intro s hs
      rw [List.append_assoc, List.mem_append] at hs
      rcases hs with hs | hs
      · exact sites.mas.safe s hs
      · cases f with
        | compat => exact (by decide : ∀ s ∈ ["api", "admin", "v1", "compat-sessions"],
            RawSafe s) s hs
        | oauth2 => exact (by decide : ∀ s ∈ ["api", "admin", "v1", "oauth2-sessions"],
            RawSafe s) s hs
    have hend : Url.trimEnd f.endpoint.toList = f.endpoint.toList := by
      cases f with
      | compat => decide
      | oauth2 => decide
    have hurl : f.listUrl config = sites.mas.origin ++
        slashed ((sites.mas.path ++ ["api", "admin", "v1"]) ++ [f.endpoint]) := by
      have hm := sites.masUrl
      rw [Site.url] at hm
      rw [List.append_assoc, slashed_append sites.mas.path, ← String.toList_inj]
      simp [toString, slashed_cons, slashed_nil, Family.listUrl, MasClient.url, hm]
    have hreach := addresses_slashed (hlibs (.deactivateUser "")) hall hend
    rw [List.append_assoc] at hreach hurl
    rw [hurl]
    exact hreach
  method := rfl
  query := rfl
  json := rfl

/-- What comes of a fetch: the first page of the family, or an error. -/
def Fetched (labels : Family → String) (w : World) (f : Family) (id : String)
    (r : Result (List MasSession)) : Prop :=
  r = .ok ((w.activeIn (labels f) id).take 50) ∨ ∃ e, r = .error e

theorem fetchSessions_only {f : Family} {id : String} :
    (MasClient.fetchSessions config f.endpoint id).Only fun c =>
      c = .adminToken ∨ ∃ token, c = .getSessions (f.listUrl config) token
        (MasClient.sessionQuery id) :=
  Prog.Only.andThen ⟨.inl rfl, fun _ => trivial⟩ fun token =>
    Prog.Only.andThen ⟨.inr ⟨token, rfl⟩, fun _ => trivial⟩ fun _ => trivial

/-- A fetch only looks. -/
theorem fetch_still (hlibs : ∀ e : Endpoint, libs.toUrlLibs.Documented (e.site sites))
    {f : Family} {id : String} :
    ((MasClient.fetchSessions config f.endpoint id).through (MasClient.exchange libs)).Only
      (Prog.Still (Backend.env libs labels sites) b) := by
  refine fetchSessions_only.through fun c hc => ?_
  rcases hc with rfl | ⟨token, rfl⟩
  · exact .lift (KeycloakClient.adminToken_only.mono fun c _ => ⟨trivial, fun _ _ h => h⟩)
  · refine .andThen (.lift ⟨⟨trivial, fun _ _ h => h⟩, fun _ => ⟨⟨trivial, ?_⟩,
      fun _ => trivial⟩⟩) fun _ => trivial
    intro x b' h
    have hpage := h _ (sessions_readAs hlibs)
    rw [Backend.mas, asks_sessions] at hpage
    exact hpage.1

theorem fetch_wp (hlibs : ∀ e : Endpoint, libs.toUrlLibs.Documented (e.site sites))
    {f : Family} {id : String} :
    ((MasClient.fetchSessions config f.endpoint id).through (MasClient.exchange libs)).wp
      (Backend.env libs labels sites) b fun r _ => Fetched labels b.world f id r := by
  rw [MasClient.fetchSessions, Prog.through_andThen, MasClient.adminToken, Prog.through_send]
  refine Prog.wp_then token_wp (fun e _ _ => .inr ⟨e, rfl⟩) fun token b' hb => ?_
  subst hb
  rw [Prog.through_andThen, MasClient.getSessions, Prog.through_send]
  have hpage : (MasClient.exchange libs (.getSessions (f.listUrl config) token
      (MasClient.sessionQuery id))).wp (Backend.env libs labels sites) b' fun z _ =>
        z = .ok (((b'.world.activeIn (labels f) id).take 50).map MasSession.resource) ∨
          ∃ e, z = .error e := by
    refine Prog.wp_andThen_pure (Prog.wp_mono ?_ (request_wp (sessions_readAs hlibs)))
    intro x b₁ h
    rw [Backend.mas, asks_sessions] at h
    obtain ⟨-, y, hmeans, hy⟩ := h
    have hconveys : Conveys y (x.bind (readJson libs "mas"
        (MasClient.listResponse MasClient.ApiSessionResource.fromValue))) :=
      readJson_conveys (fun _ _ hv => MasClient.listResponse_of hv) hmeans
    rcases hy with rfl | ⟨e, rfl⟩
    · exact .inl hconveys
    · exact .inr hconveys
  refine Prog.wp_then hpage (fun e _ _ => .inr ⟨e, rfl⟩) fun data _ hdata => ?_
  rcases hdata with hdata | ⟨e, he⟩
  · cases hdata
    refine .inl (congrArg Except.ok ?_)
    rw [List.map_map]
    exact List.map_id _
  · cases he

section

variable {w : World} {id : String} {compat oauth2 : Result (List MasSession)}

/-- Two fetches make up no session. -/
theorem fetched_subset (hcompat : Fetched labels w .compat id compat)
    (hoauth : Fetched labels w .oauth2 id oauth2) :
    (MasClient.listed compat oauth2).sessions ⊆ w.active id := by
  have hpage : ∀ f, (w.activeIn (labels f) id).take 50 ⊆ w.active id := fun f s hs =>
    List.mem_of_mem_filter (List.mem_of_mem_take hs)
  rcases hcompat with rfl | ⟨e, rfl⟩
  · rcases hoauth with rfl | ⟨e, rfl⟩
    · exact List.append_subset.2 ⟨hpage .compat, hpage .oauth2⟩
    · exact hpage .compat
  · rcases hoauth with rfl | ⟨e', rfl⟩
    · exact hpage .oauth2
    · exact List.nil_subset _

/-- And leave none out, where each list is one page and neither of them failed. -/
theorem fetched_covers (hcompat : Fetched labels w .compat id compat)
    (hoauth : Fetched labels w .oauth2 id oauth2) (hpaged : w.Paged labels)
    (hnone : (MasClient.listed compat oauth2).warnings = []) :
    w.active id ⊆ (MasClient.listed compat oauth2).sessions := by
  intro s hs
  rcases hcompat with rfl | ⟨e, rfl⟩
  · rcases hoauth with rfl | ⟨e, rfl⟩
    · obtain ⟨f, hf⟩ := hpaged.known id s hs
      have hmem : s ∈ (w.activeIn (labels f) id).take 50 := by
        rw [List.take_of_length_le (hpaged.fits id f)]
        exact List.mem_filter.2 ⟨hs, decide_eq_true hf⟩
      cases f with
      | compat => exact List.mem_append_left _ hmem
      | oauth2 => exact List.mem_append_right _ hmem
    · cases hnone
  · rcases hoauth with rfl | ⟨e', rfl⟩
    · cases hnone
    · cases hnone

/-- What the client makes of two fetches is one of the lists MAS may give. -/
theorem listed_step (hcompat : Fetched labels w .compat id compat)
    (hoauth : Fetched labels w .oauth2 id oauth2) :
    (World.pagedDay labels).step w (.mas (.listSessions id))
      (.ok (MasClient.listed compat oauth2)) w := by
  -- What is missing is missing from this user's list only.
  refine ⟨.short (MasClient.listed compat oauth2).warnings (fun l =>
    if l = w.active id then (MasClient.listed compat oauth2).sessions else l) ?_, ?_, ?_⟩
  · intro l
    split
    · next h =>
        rw [h]
        exact fetched_subset hcompat hoauth
    · exact List.Subset.refl l
  · intro hpaged hnone l
    show l ⊆ if l = w.active id then _ else l
    split
    · next h =>
        rw [h]
        exact fetched_covers hcompat hoauth hpaged hnone
    · exact List.Subset.refl l
  · rw [World.respond, if_pos rfl]

end

theorem listSessions_wp (hlibs : ∀ e : Endpoint, libs.toUrlLibs.Documented (e.site sites))
    {id : String} :
    (MasClient.listSessions libs config id).wp (Backend.env libs labels sites) b
      fun z b' => (World.pagedDay labels).step b.world (.mas (.listSessions id)) z
        b'.world := by
  refine Prog.wp_seq (R := fun _ b' => b' = b) ⟨trivial, fun _ _ h => h⟩
    fun schedule b' hb => ?_
  subst hb
  have hstill : ∀ f : Family, ((MasClient.fetchSessions config f.endpoint id).through
      (MasClient.exchange libs)).Only (Prog.Still (Backend.env libs labels sites) b') :=
    fun f => fetch_still hlibs
  have hfetch : ∀ f : Family, ((MasClient.fetchSessions config f.endpoint id).through
      (MasClient.exchange libs)).wp (Backend.env libs labels sites) b' fun r _ =>
        Fetched labels b'.world f id r := fun f => fetch_wp hlibs
  refine Prog.wp_seq (Prog.both_wp (hstill .compat) (hstill .oauth2) (hfetch .compat)
    (hfetch .oauth2)) fun r b₁ h => ?_
  obtain ⟨rfl, hcompat, hoauth⟩ := h
  exact listed_step hcompat hoauth

theorem mas_refines (hlibs : ∀ e : Endpoint, libs.toUrlLibs.Documented (e.site sites))
    (c : AuthCall) (hc : (Call.mas c).Arrives labels) :
    (MasClient.carryOut libs config c).wp (Backend.env libs labels sites) b
      fun z b' => (World.pagedDay labels).step b.world (.mas c) z b'.world := by
  cases c with
  | getUserByUsername username =>
      have hread := mas_readAs hlibs rfl (hc.ids (.getUserByUsername username) rfl) rfl
      exact Prog.wp_mono (fun _ _ => World.step_paged) (mas_wp hread rfl fun x y h =>
        readUser_conveys h)
  | listSessions id => exact listSessions_wp hlibs
  | finishSession id type =>
      exact Prog.wp_mono (fun _ _ => World.step_paged) (finishSession_wp hlibs (hc.ids _ rfl)
        fun f hf => hc.family id f (by rw [hf]))
  | deactivateUser id =>
      have hread := mas_readAs hlibs rfl (hc.ids (.deactivateUser id) rfl) rfl
      exact Prog.wp_mono (fun _ _ => World.step_paged) (mas_wp hread rfl fun x y h =>
        readStatus_conveys h)
  | reactivateUser id =>
      have hread := mas_readAs hlibs rfl (hc.ids (.reactivateUser id) rfl) rfl
      exact Prog.wp_mono (fun _ _ => World.step_paged) (mas_wp hread rfl fun x y h =>
        readStatus_conveys h)

/-! ## The calls of Synapse -/

/-- A document with one level changed is a world with one level changed. -/
theorem puts_world {b' : Backend} {r u : String} {level : Int}
    (h : b.Puts r (SynapseClient.withUserLevel u level (b.levels r)) b') :
    b'.world = b.world.setPower r u level := by
  obtain ⟨hworld, hlevels⟩ := h
  have hpower : b'.world.power = (b.world.setPower r u level).power := by
    funext r' u'
    rw [b'.power, hlevels]
    change _ = if r' = r ∧ u' = u then some level else b.world.power r' u'
    by_cases hr : r' = r
    · subst hr
      rw [Function.update_self, levelIn]
      by_cases hu : u' = u
      · subst hu
        rw [SynapseClient.levelOf_withUserLevel (b.settable r'), if_pos ⟨rfl, rfl⟩]
      · rw [SynapseClient.levelOf_withUserLevel_of_ne hu, if_neg (fun h => hu h.2), b.power]
        rfl
    · rw [Function.update_of_ne hr, if_neg (fun h => hr h.1), b.power]
  rw [hworld, hpower]
  rfl

theorem getState_wp (hlibs : ∀ e : Endpoint, libs.toUrlLibs.Documented (e.site sites))
    {r : String} (hr : (Endpoint.getPowerLevels r).Safe) :
    (SynapseClient.powerLevels libs config (.getState r)).wp (Backend.env libs labels sites) b
      fun z b' => b' = b ∧ (z = .ok (b.levels r) ∨ ∃ e, z = .error e) := by
  have hread := readAs_of_safe [] none (hlibs (.getPowerLevels r)) rfl hr
  refine Prog.wp_andThen_pure (Prog.wp_mono ?_ (synapse_send_wp hread))
  intro x b' h
  obtain ⟨rfl, y, hmeans, hy⟩ := h
  have hconveys : Conveys y (x.bind (readJson libs "synapse" some)) :=
    readJson_conveys (fun v a hv => congrArg some hv) hmeans
  refine ⟨rfl, ?_⟩
  rcases hy with rfl | ⟨e, rfl⟩
  · exact .inl hconveys
  · exact .inr hconveys

theorem putState_wp (hlibs : ∀ e : Endpoint, libs.toUrlLibs.Documented (e.site sites))
    {r u : String} {level : Int} (hr : (Endpoint.setPowerLevel r).Safe) :
    (SynapseClient.powerLevels libs config
        (.putState r (SynapseClient.withUserLevel u level (b.levels r)))).wp
      (Backend.env libs labels sites) b
      fun z b' => World.env.step b.world (.synapse (.setPowerLevel r u level)) z b'.world := by
  have hread := readAs_of_safe []
    (some (SynapseClient.withUserLevel u level (b.levels r))) (hlibs (.setPowerLevel r))
    rfl hr
  refine Prog.wp_andThen_pure (Prog.wp_mono ?_ (synapse_send_wp hread))
  intro x b' h
  obtain ⟨y, hmeans, hdone⟩ := h
  refine World.step_conveys ?_ (readStatus_conveys hmeans)
  rcases hdone with hputs | ⟨rfl, e, rfl⟩
  · rw [puts_world hputs]
    cases y with
    | ok u => exact World.step_serve _ _
    | error e => exact ⟨.fails e true, trivial, rfl⟩
  · exact World.step_fails _ _ _

theorem synapse_refines (hlibs : ∀ e : Endpoint, libs.toUrlLibs.Documented (e.site sites))
    (c : MatrixCall) (hc : ∀ e ∈ c.endpoint, e.Safe) :
    (SynapseClient.carryOut libs config c).wp (Backend.env libs labels sites) b
      fun z b' => World.env.step b.world (.synapse c) z b'.world := by
  have hread : ∀ (e : Endpoint) (req : HttpRequest) (json : Option Value),
      e.service = .synapse → e ∈ c.endpoint → e.request libs.toUrlLibs config = .ok req →
      (⟨req, [], json⟩ : Outgoing).ReadAs libs.toUrlLibs sites.synapse.path
        ⟨req.method, e.parts.map Part.value, [], json⟩ := by
    intro e req json hservice he hreq
    have hbase : e.base sites = sites.synapse.path := by
      rw [Endpoint.base, hservice]
    rw [← hbase]
    exact readAs_of_safe [] _ (hlibs e) hreq (hc e he)
  cases c with
  | getJoinedRoomMembers r =>
      exact synapse_wp (hread (.getJoinedRoomMembers r) _ none rfl rfl rfl) rfl
        fun x y h => readJson_conveys (fun _ _ hv => SynapseClient.membersResponse_of hv) h
  | forceJoinUser u r =>
      exact synapse_wp (c := .forceJoinUser u r) (hread (.forceJoinUser r) _ _ rfl rfl rfl)
        rfl fun x y h => readStatus_conveys h
  | kickUserFromRoom u r why =>
      exact synapse_wp (c := .kickUserFromRoom u r why)
        (hread (.kickUserFromRoom r) _ _ rfl rfl rfl) rfl fun x y h => readStatus_conveys h
  | getSpaceChildren r =>
      exact synapse_wp (hread (.getSpaceChildren r) _ none rfl rfl rfl) rfl
        fun x y h => readJson_conveys (fun _ _ hv => SynapseClient.stateResponse_of hv) h
  | setPowerLevel r u level =>
      have hsafe : (Endpoint.setPowerLevel r).Safe := hc _ rfl
      rw [SynapseClient.carryOut, SynapseClient.setPowerLevel, Prog.through_andThen,
        SynapseClient.call, Prog.through_send]
      refine Prog.wp_then (getState_wp (r := r) hlibs hsafe) ?_ ?_
      · intro e b' h
        obtain ⟨rfl, -⟩ := h
        exact World.step_fails _ _ _
      · intro v b' h
        obtain ⟨rfl, h | ⟨e, h⟩⟩ := h
        · cases h
          rw [SynapseClient.call, Prog.through_send]
          exact putState_wp hlibs hsafe
        · cases h

end

/-! ## Programs -/

section

variable {libs : HttpLibs} {labels : Family → String} {config : ClientConfig}
  {sites : Sites config} (hlibs : ∀ e : Endpoint, libs.toUrlLibs.Documented (e.site sites))

include hlibs

/-- Each call is carried out as the world has it. -/
theorem carryOut_refines (c : Call) (hc : c.Arrives labels) (b : Backend) :
    (carryOut libs config c).wp (Backend.env libs labels sites) b
      fun z b' => (World.pagedDay labels).step b.world c z b'.world := by
  cases c with
  | keycloak c => exact Prog.wp_mono (fun _ _ => World.step_paged) (keycloak_refines hlibs c hc.ids)
  | mas c => exact mas_refines hlibs c hc
  | synapse c => exact Prog.wp_mono (fun _ _ => World.step_paged) (synapse_refines hlibs c hc.ids)
  | audit entry => exact Prog.wp_mono (fun _ _ => World.step_paged) direct_wp
  | policy c => exact Prog.wp_mono (fun _ _ => World.step_paged) direct_wp

/-- Whatever a program does over the wire, it did above: with the same value, and
if its calls arrive, with the same effect on the world. Its session lists were the
active sessions, in part perhaps; where a page holds every list of MAS, they were all
of them, or said that they were not. -/
theorem wire_refines {α : Type} (p : Async α) {t : List (Event WireCall WireCall.Answer)}
    {a : α} {b b' : Backend} (hr : (p.through (carryOut libs config)).Runs t a)
    (hp : (Backend.env libs labels sites).Path b t b') :
    ∃ T, p.Runs T a ∧ ((∀ c ∈ calls T, c.Arrives labels) →
      World.anyDay.Path b.world T b'.world ∧
        (b.world.Paged labels → World.env.Path b.world T b'.world)) := by
  have hrefines : ∃ T, p.Runs T a ∧ ((∀ c ∈ calls T, c.Arrives labels) →
      (World.pagedDay labels).Path b.world T b'.world) :=
    Prog.through_refines (f := Backend.world) (fun c hc b => carryOut_refines hlibs c hc b)
      hr hp
  obtain ⟨T, hT, hpath⟩ := hrefines
  refine ⟨T, hT, fun hall => ⟨?_, World.env_of_paged (hpath hall)⟩⟩
  exact (hpath hall).map (f := fun w => w) fun w c x w' hstep =>
    World.step_days (fun _ _ _ => trivial) hstep

end

/-! ### A session is found and ended -/

section

variable {libs : HttpLibs} {labels : Family → String} {config : ClientConfig}
  {sites : Sites config} {b b' : Backend} {out : Outgoing} {inc : Incoming}
  {x : Except AppError Response}

/-- A server that reads the request as `inc` answers it as `inc`. -/
theorem keycloak_step
    (hread : out.ReadAs libs.toUrlLibs (Backend.keycloakBase sites) inc)
    (h : b.keycloak libs inc x b') :
    (Backend.env libs labels sites).step b (.keycloak out .response) x b' :=
  hread.only h

/-- And so does MAS. -/
theorem mas_step (hread : out.ReadAs libs.toUrlLibs sites.mas.path inc)
    (h : b.mas libs labels inc x b') :
    (Backend.env libs labels sites).step b (.mas out .response) x b' :=
  hread.only h

end

def phoneBody : String :=
  "\x7b\"data\":[\x7b\"id\":\"s-1\",\"type\":\"compat\",\"attributes\":\x7b" ++
    "\"user_agent\":null,\"finished_at\":null\x7d\x7d]\x7d"

def emptyBody : String := "\x7b\"data\":[]\x7d"

def phoneDocument : Value :=
  .object [("data", .array [.object [("id", .string "s-1"), ("type", .string "compat"),
    ("attributes", .object [("user_agent", .null), ("finished_at", .null)])]])]

def emptyDocument : Value := .object [("data", .array [])]

def adaBody : String :=
  "\x7b\"id\":\"kc-1\",\"username\":\"ada\",\"enabled\":true,\"emailVerified\":true\x7d"

def adaDocument : Value :=
  .object [("id", .string "kc-1"), ("username", .string "ada"), ("enabled", .bool true),
    ("emailVerified", .bool true)]

def accountBody : String :=
  "\x7b\"data\":\x7b\"id\":\"mas-1\",\"attributes\":\x7b\"username\":\"ada\"," ++
    "\"deactivated_at\":null\x7d\x7d\x7d"

def accountDocument : Value :=
  .object [("data", .object [("id", .string "mas-1"),
    ("attributes", .object [("username", .string "ada"), ("deactivated_at", .null)])])]

/-- What `serde_json` makes of the bodies. -/
def phoneHttp : HttpLibs where
  toUrlLibs := libsAt "https://id.example.org"
  fromStr body := [(phoneBody, phoneDocument), (emptyBody, emptyDocument),
    (adaBody, adaDocument), (accountBody, accountDocument)].lookup body
  canonicalReason _ := none

theorem phoneDocument_sessions :
    ObjectOf SessionsDocument phoneDocument [MasSession.resource phone] := by
  refine ⟨_, rfl, by decide, _, rfl, _, rfl, .cons ⟨_, rfl, ?_⟩ .nil⟩
  exact ⟨by decide, rfl, rfl, _, rfl, by decide, trivial, trivial, trivial, trivial, .inr rfl⟩

theorem emptyDocument_sessions : ObjectOf SessionsDocument emptyDocument [] :=
  ⟨_, rfl, by decide, _, rfl, _, rfl, .nil⟩

def listRequest (f : Family) : Outgoing :=
  ⟨⟨.get, f.listUrl rootConfig⟩, MasClient.sessionQuery "mas-1", none⟩

/-- Both lists are asked for before either has come. -/
def bothFetched : List (Event WireCall WireCall.Answer) :=
  let token (c : TokenCall) (x : c.Answer) : Event WireCall WireCall.Answer :=
    ⟨.masToken c, x⟩
  let saw (f : Family) (c : TokenCall) (x : c.Answer) : Event WireCall WireCall.Answer :=
    ⟨.mas (listRequest f) c, x⟩
  [⟨.schedule, [true, true, true, true, false, false, false, false, true, false, false]⟩,
    token .lock (), token .readCache (some ⟨"t", 1⟩), token .now (0 : Nat), token .unlock (),
    token .lock (), token .readCache (some ⟨"t", 1⟩), token .now (0 : Nat), token .unlock (),
    saw .compat (.send "t") (), saw .oauth2 (.send "t") (),
    saw .oauth2 .response (.ok ⟨200, emptyBody⟩),
    saw .compat .response (.ok ⟨200, phoneBody⟩)]

theorem bothFetched_runs : (MasClient.listSessions phoneHttp rootConfig "mas-1").Runs
    bothFetched (.ok ⟨[phone], []⟩) :=
  ⟨_, rfl, _, rfl, _, rfl, _, rfl, _, rfl, _, rfl, _, rfl, _, rfl, _, rfl, _, rfl, _, rfl,
    _, rfl, _, rfl, rfl⟩

theorem phoneHttp_documented (e : Endpoint) :
    phoneHttp.toUrlLibs.Documented (e.site rootSites) :=
  libsAt_documented (rootSites_origin e)

/-- Nobody has a power level anywhere. -/
def plainBackend (w : World) (h : ∀ r u, w.power r u = none) : Backend where
  world := w
  levels _ := .object []
  settable _ := .inl rfl
  power := h

def phoneBackend : Backend := plainBackend onePhone fun _ _ => rfl

theorem bothFetched_path : (Backend.env phoneHttp Family.tag rootSites).Path phoneBackend
    bothFetched phoneBackend := by
  have hserved : ∀ (f : Family) (body : String) (v : Value),
      phoneHttp.fromStr body = some v →
      ObjectOf SessionsDocument v (((onePhone.activeIn f.tag "mas-1").take 50).map
        MasSession.resource) →
      (Backend.env phoneHttp Family.tag rootSites).step phoneBackend
        (.mas (listRequest f) .response) (.ok ⟨200, body⟩) phoneBackend := by
    intro f body v hbody hdoc
    refine mas_step (sessions_readAs phoneHttp_documented) ?_
    rw [Backend.mas, asks_sessions]
    have hok : (200 : UInt16) ≤ 200 ∧ (200 : UInt16) < 300 := by decide
    exact ⟨rfl, .ok _, ⟨_, v, rfl, hok, hbody, hdoc⟩, .inl rfl⟩
  have hcompat := hserved .compat phoneBody _ rfl phoneDocument_sessions
  have hoauth := hserved .oauth2 emptyBody _ rfl emptyDocument_sessions
  exact ⟨_, rfl, _, rfl, _, rfl, _, rfl, _, rfl, _, rfl, _, rfl, _, rfl, _, rfl, _, rfl,
    _, rfl, _, hoauth, _, hcompat, rfl⟩

def finishRequest : Outgoing :=
  ⟨⟨.post, Family.finishUrl rootConfig .compat "s-1"⟩, [], none⟩

def phoneFinished : List (Event WireCall WireCall.Answer) :=
  let token (c : TokenCall) (x : c.Answer) : Event WireCall WireCall.Answer :=
    ⟨.masToken c, x⟩
  [token .lock (), token .readCache (some ⟨"t", 1⟩), token .now (0 : Nat), token .unlock (),
    ⟨.mas finishRequest (.send "t"), ()⟩,
    ⟨.mas finishRequest .response, .ok ⟨200, emptyBody⟩⟩]

theorem phoneFinished_runs : ((MasClient.finishSession rootConfig "s-1" "compat").through
    (MasClient.exchange phoneHttp)).Runs phoneFinished (.ok ()) :=
  ⟨_, rfl, _, rfl, _, rfl, _, rfl, _, rfl, _, rfl, rfl⟩

def phoneBackendOut : Backend :=
  plainBackend (onePhone.finish "s-1" "compat") fun _ _ => rfl

theorem phoneFinished_path : (Backend.env phoneHttp Family.tag rootSites).Path phoneBackend
    phoneFinished phoneBackendOut := by
  have hsafe : (Endpoint.finishSession "s-1" "compat").Safe := by decide
  have hread : finishRequest.ReadAs phoneHttp.toUrlLibs rootSites.mas.path ⟨.post,
      (Endpoint.finishSession "s-1" "compat").parts.map Part.value, [], none⟩ :=
    mas_readAs phoneHttp_documented rfl hsafe rfl
  have hasks : Mas.asks Family.tag ⟨.post,
      (Endpoint.finishSession "s-1" "compat").parts.map Part.value, [], none⟩ =
      some (.call (.finishSession "s-1" "compat")) := asks_finish (f := .compat) rfl
  have hdone : (Backend.env phoneHttp Family.tag rootSites).step phoneBackend
      (.mas finishRequest .response) (.ok ⟨200, emptyBody⟩) phoneBackendOut := by
    refine mas_step hread ?_
    rw [Backend.mas, hasks]
    exact ⟨.ok (), ⟨_, rfl, by decide⟩, World.step_serve _ _, rfl⟩
  exact ⟨_, rfl, _, rfl, _, rfl, _, rfl, _, rfl, _, hdone, rfl⟩

theorem onePhone_paged : onePhone.Paged Family.tag := by
  refine ⟨fun id s hs => ⟨.compat, ?_⟩, fun id f => ?_⟩
  · rw [(onePhone_sessions (World.mem_active.1 hs).1).2]
    rfl
  · have hone : (onePhone.sessions id).length ≤ 1 := by
      show (if id = "mas-1" then [phone] else []).length ≤ 1
      split
      · exact Nat.le_refl 1
      · exact Nat.zero_le 1
    have hactive : (onePhone.active id).length ≤ 1 := (List.length_filter_le _ _).trans hone
    have hfamily : (onePhone.activeIn f.tag id).length ≤ 1 :=
      (List.length_filter_le _ _).trans hactive
    omega

/-- List the sessions of an account, and end one. -/
def endPhone : Async (Result Unit) :=
  (Mas.listSessions "mas-1").andThen fun _ => Mas.finishSession "s-1" "compat"

theorem endPhone_runs : (endPhone.through (carryOut phoneHttp rootConfig)).Runs
    (bothFetched ++ phoneFinished) (.ok ()) := by
  rw [endPhone, Prog.through_andThen, Mas.listSessions, Mas.finishSession, ask, ask,
    Prog.through_send, Prog.through_send]
  show ((MasClient.listSessions phoneHttp rootConfig "mas-1").andThen fun _ =>
    (MasClient.finishSession rootConfig "s-1" "compat").through
      (MasClient.exchange phoneHttp)).Reaches _ _
  rw [Prog.andThen]
  refine Prog.Runs.bind ?_ bothFetched_runs
  exact phoneFinished_runs

/-- Two requests for lists and one for an end are a list and an end, and Ada's phone
is logged out. -/
theorem phone_ended_over_wire : ∃ T, endPhone.Runs T (.ok ()) ∧
    World.env.Path onePhone T (onePhone.finish "s-1" "compat") := by
  obtain ⟨T, hT, hpath⟩ := wire_refines phoneHttp_documented _ endPhone_runs
    (bothFetched_path.append phoneFinished_path)
  have honly : endPhone.Only fun c =>
      c = .mas (.listSessions "mas-1") ∨ c = .mas (.finishSession "s-1" "compat") :=
    Prog.Only.andThen ⟨.inl rfl, fun _ => trivial⟩ fun _ => ⟨.inr rfl, fun _ => trivial⟩
  have harrives : ∀ c ∈ calls T, c.Arrives Family.tag := by
    intro c hc
    refine ⟨?_, fun _ _ _ => rfl⟩
    rcases honly.reaches hT c hc with rfl | rfl
    · exact fun e he => nomatch he
    · rintro e ⟨⟩
      decide
  exact ⟨T, hT, (hpath harrives).2 onePhone_paged⟩

end MatrixIdentityAdmin.Ref
