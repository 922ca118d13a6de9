import Mathlib.Data.List.Forall2
import MatrixIdentityAdmin.Proofs.Authority
import MatrixIdentityAdmin.Proofs.Endpoints
import MatrixIdentityAdmin.Proofs.PowerLevels
import MatrixIdentityAdmin.Spec.Rest

/-!
# The clients and the APIs

What a client sends is read on the other side as what its method is called for,
and what is sent back is read by the client as what was meant. The first half is
about URLs, and rests on `Endpoint.exact_iff`; the second is about documents.
Between them every call of a client is a call of the world, and whatever runs
over the clients runs over the world.
-/

namespace MatrixIdentityAdmin.Ref

open MatrixIdentityAdmin.Lib
open KeycloakClient (Response)

/-! ## Requests -/

section

variable {libs : UrlLibs} {config : ClientConfig} {sites : Sites config}
  {base : List String} {out : Outgoing} {inc inc' : Incoming}

/-- A request is read in one way only. -/
theorem Outgoing.ReadAs.unique (h : out.ReadAs libs base inc)
    (h' : out.ReadAs libs base inc') : inc = inc' := by
  obtain ⟨t, ht, haddr⟩ := h.reaches
  obtain ⟨t', ht', haddr'⟩ := h'.reaches
  rw [ht, Option.some.injEq] at ht'
  subst ht'
  have hsegments := List.append_cancel_left (Endpoint.segments_inj haddr haddr')
  have hmethod := h.method.trans h'.method.symm
  have hquery := h.query.trans h'.query.symm
  have hjson := h.json.trans h'.json.symm
  cases inc
  cases inc'
  simp only at hsegments hmethod hquery hjson
  rw [hsegments, hmethod, hquery, hjson]

/-- What holds of the one reading holds of every reading. -/
theorem Outgoing.ReadAs.only {p : Incoming → Prop} (h : out.ReadAs libs base inc)
    (hp : p inc) : ∀ inc', out.ReadAs libs base inc' → p inc' := by
  intro inc' h'
  rw [← h.unique h']
  exact hp

/-- A request whose ids are safe is read as it was meant. -/
theorem readAs_of_safe {e : Endpoint} {req : HttpRequest} (query : List (String × String))
    (json : Option Value) (hlibs : libs.Documented (e.site sites))
    (hreq : e.request libs config = .ok req) (hsafe : e.Safe) :
    (⟨req, query, json⟩ : Outgoing).ReadAs libs (e.base sites)
      ⟨req.method, e.parts.map Part.value, query, json⟩ where
  reaches := (Endpoint.exact_iff hlibs).2 hsafe req hreq
  method := rfl
  query := rfl
  json := rfl

/-- So is one whose path has no ids at all. -/
theorem addresses_slashed {site : Site} (hlibs : libs.Documented site)
    {segments : List String} {last : String}
    (hsafe : ∀ s ∈ segments ++ [last], RawSafe s)
    (hend : Url.trimEnd last.toList = last.toList) :
    ∃ target, libs.parse (site.origin ++ slashed (segments ++ [last])) = some target ∧
      target.Addresses ((segments ++ [last]).map fun s => Url.utf8 s.toList) := by
  obtain ⟨set, hset, hparse⟩ := hlibs.parse
  have hintact : Url.Intact ((segments ++ [last]).map rawPiece) := by
    rw [List.map_append, List.map_singleton, intact_append]
    · exact ⟨rawPiece_survives.2 (hsafe last (by simp)), hend⟩
    · intro p hp
      obtain ⟨s, hs, rfl⟩ := List.mem_map.1 hp
      exact rawPiece_survives.2 (hsafe s (List.mem_append_left _ hs))
    · exact List.cons_ne_nil _ _
  have hhead : (slashed (segments ++ [last])).toList.head? = some '/' := by
    obtain ⟨s, ss, hs⟩ := List.exists_cons_of_ne_nil
      (List.append_ne_nil_of_right_ne_nil segments (List.cons_ne_nil last []))
    rw [hs, slashed, String.toList_ofList, List.map_cons, Url.join_cons]
    rfl
  have hne : (segments ++ [last]).map rawPiece ≠ [] := by simp
  have hwritten : ∀ p ∈ (segments ++ [last]).map rawPiece, p.Written := by
    intro p hp
    obtain ⟨s, -, rfl⟩ := List.mem_map.1 hp
    exact rawPiece_written s
  have hiff := Url.addresses_iff hset hne hwritten
  have hvalue : ((segments ++ [last]).map rawPiece).map Url.Piece.value =
      (segments ++ [last]).map fun s => Url.utf8 s.toList := by
    rw [List.map_map]
    rfl
  have htext : ((segments ++ [last]).map rawPiece).map Url.Piece.text =
      (segments ++ [last]).map String.toList := by
    rw [List.map_map]
    rfl
  rw [hvalue, htext] at hiff
  refine ⟨_, hparse _ hhead, ?_⟩
  rw [slashed, String.toList_ofList]
  exact hiff.2 hintact

end

/-! ## Documents -/

namespace Value

variable {members : List (String × Value)} {α : Type}

/-- The fields of an object whose keys are distinct are what is under them. -/
theorem structFields_object (h : (members.map Prod.fst).Nodup) (names : List String) :
    structFields names (.object members) = some (names.map fun name => get name members) :=
  if_pos (h.filter _)

theorem readOption_of {v : Option Value} (h : Optional IsString v) :
    ∃ s, readOption v = some s := by
  match v, h with
  | none, _ => exact ⟨none, rfl⟩
  | some .null, _ => exact ⟨none, rfl⟩
  | some (.string s), _ => exact ⟨some s, rfl⟩
  | some (.bool _), h | some (.number _), h | some (.float _), h | some (.array _), h
  | some (.object _), h =>
      obtain ⟨s, hs⟩ := h
      cases hs

theorem readOptionI64_of {v : Option Value} (h : Optional IsI64 v) :
    ∃ n, readOptionI64 v = some n := by
  match v, h with
  | none, _ => exact ⟨none, rfl⟩
  | some .null, _ => exact ⟨none, rfl⟩
  | some (.number n), h =>
      obtain ⟨m, hm, hrange⟩ := h
      cases hm
      exact ⟨some n, if_pos hrange⟩
  | some (.bool _), h | some (.string _), h | some (.float _), h | some (.array _), h
  | some (.object _), h =>
      obtain ⟨n, hn, -⟩ := h
      cases hn

theorem readStringsOrDefault_of {v : Option Value}
    (h : v = none ∨ ∃ l : List String, v = some (.array (l.map .string))) :
    ∃ l, readStringsOrDefault v = some l := by
  rcases h with rfl | ⟨l, rfl⟩
  · exact ⟨[], rfl⟩
  · exact ⟨l, Value.mapM_asStr l⟩

theorem readOption_stringOrNull {s : Option String} {v : Option Value}
    (h : stringOrNull s v) : readOption v = some s := by
  cases s with
  | some s =>
      obtain rfl : v = some (.string s) := h
      rfl
  | none =>
      rcases h with rfl | rfl
      · rfl
      · rfl

theorem readList_of {doc : Value → α → Prop} {fromValue : Value → Option α}
    (hdoc : ∀ v a, doc v a → fromValue v = some a) {v : Value} {l : List α}
    (h : ListOf doc v l) : readList fromValue v = some l := by
  obtain ⟨vs, rfl, hall⟩ := h
  change vs.mapM fromValue = some l
  induction hall with
  | nil => rfl
  | cons hv _ ih =>
      rw [List.mapM_cons, hdoc _ _ hv, ih]
      rfl

theorem readU32_of (n : UInt32) : readU32 (.number n.toNat) = some n := by
  have hn := n.toNat_lt
  rw [readU32, if_pos ⟨Int.natCast_nonneg _, by exact_mod_cast hn⟩, Int.toNat_natCast]
  exact congrArg some (UInt32.ofNat_toNat)

end Value

open Value

theorem KeycloakUser.fromValue_of {v : Value} {u : KeycloakUser}
    (h : ObjectOf UserRepresentation v u) : KeycloakUser.fromValue v = some u := by
  obtain ⟨members, rfl, h⟩ := h
  obtain ⟨email, hemail⟩ := readOption_of h.email
  obtain ⟨firstName, hfirst⟩ := readOption_of h.firstName
  obtain ⟨lastName, hlast⟩ := readOption_of h.lastName
  obtain ⟨verified, hverified⟩ := h.emailVerified
  obtain ⟨created, hcreated⟩ := readOptionI64_of h.createdTimestamp
  obtain ⟨actions, hactions⟩ := readStringsOrDefault_of h.requiredActions
  simp [KeycloakUser.fromValue, structFields_object h.keys, h.id, h.username, h.enabled,
    hemail, hfirst, hlast, hverified, hcreated, hactions, readString, readBool, asStr]

theorem KeycloakGroup.fromValue_of {v : Value} {g : KeycloakGroup}
    (h : ObjectOf GroupRepresentation v g) : KeycloakGroup.fromValue v = some g := by
  obtain ⟨members, rfl, h⟩ := h
  simp [KeycloakGroup.fromValue, structFields_object h.keys, h.id, h.name, h.path,
    readString, asStr]

theorem KeycloakRole.fromValue_of {v : Value} {r : KeycloakRole}
    (h : ObjectOf RoleRepresentation v r) : KeycloakRole.fromValue v = some r := by
  obtain ⟨members, rfl, h⟩ := h
  obtain ⟨composite, hcomposite⟩ := h.composite
  obtain ⟨client, hclient⟩ := h.clientRole
  obtain ⟨container, hcontainer⟩ := readOption_of h.containerId
  simp [KeycloakRole.fromValue, structFields_object h.keys, h.id, h.name, hcomposite,
    hclient, hcontainer, readString, readBool, asStr]

theorem MasClient.singleResponse_of {v : Value} {u : MasUser}
    (h : ObjectOf MasUserDocument v u) :
    (singleResponse ApiUserResource.fromValue v).map toUser = some u := by
  obtain ⟨members, rfl, h⟩ := h
  obtain ⟨resource, hdata, hkeys, hid, attributes, hattributes, hkeys', hname, hat⟩ := h.data
  simp [singleResponse, ApiUserResource.fromValue, ApiUserAttributes.fromValue,
    structFields_object h.keys, structFields_object hkeys, structFields_object hkeys',
    hdata, hid, hattributes, hname, readOption_stringOrNull hat, readString, asStr, toUser]

theorem MasClient.ApiSessionResource.fromValue_of {v : Value} {r : ApiSessionResource}
    (h : ObjectOf SessionDocument v r) : ApiSessionResource.fromValue v = some r := by
  obtain ⟨members, rfl, h⟩ := h
  obtain ⟨attributes, hattributes, hkeys, hcreated, hactive, hagent, hip, hfinished⟩ :=
    h.attributes
  obtain ⟨created, hcreated⟩ := readOption_of hcreated
  obtain ⟨active, hactive⟩ := readOption_of hactive
  obtain ⟨agent, hagent⟩ := readOption_of hagent
  obtain ⟨ip, hip⟩ := readOption_of hip
  simp [ApiSessionResource.fromValue, ApiSessionAttributes.fromValue,
    structFields_object h.keys, structFields_object hkeys, h.id, h.type, hattributes,
    hcreated, hactive, hagent, hip, readOption_stringOrNull hfinished, readString, asStr]

theorem MasClient.listResponse_of {v : Value} {l : List ApiSessionResource}
    (h : ObjectOf SessionsDocument v l) :
    listResponse ApiSessionResource.fromValue v = some l := by
  obtain ⟨members, rfl, h⟩ := h
  obtain ⟨data, hdata, hlist⟩ := h.data
  have hread := readList_of (fun _ _ h => ApiSessionResource.fromValue_of h) hlist
  simp [listResponse, structFields_object h.keys, hdata, hread]

theorem SynapseClient.membersResponse_of {v : Value} {l : List String}
    (h : ObjectOf MembersDocument v l) : membersResponse v = some l := by
  obtain ⟨members, rfl, h⟩ := h
  simp only [membersResponse, structFields_object h.keys, List.map_cons, List.map_nil,
    h.members]
  exact Value.mapM_asStr l

theorem SynapseClient.StateEvent.fromValue_of {v : Value} {e : StateEvent}
    (h : ObjectOf StateEventDocument v e) : StateEvent.fromValue v = some e := by
  obtain ⟨members, rfl, h⟩ := h
  simp [StateEvent.fromValue, structFields_object h.keys, h.type, h.stateKey, h.content,
    readString, asStr]

theorem SynapseClient.stateResponse_of {v : Value} {l : List String}
    (h : ObjectOf StateDocument v l) : (stateResponse v).map children = some l := by
  obtain ⟨members, rfl, h⟩ := h
  obtain ⟨state, events, hstate, hevents, rfl⟩ := h.state
  have hlist := readList_of (fun _ _ h => StateEvent.fromValue_of h) hevents
  simp [stateResponse, structFields_object h.keys, hstate, hlist]

/-! ## Responses -/

/-- A client says what was meant: the value, or that there was an error. -/
def Conveys {α : Type} (meant said : Result α) : Prop :=
  match meant with
  | .ok a => said = .ok a
  | .error _ => ∃ e, said = .error e

section

variable {libs : HttpLibs} {service : String} {α β : Type} {doc : Value → α → Prop}
  {fromValue : Value → Option α} {x : Except AppError Response}

theorem errorForStatus_error {resp : Response} (h : IsError resp) :
    ∃ e, errorForStatus libs service resp = .error e := ⟨_, if_pos h⟩

theorem errorForStatus_success {resp : Response} (h : IsSuccess resp) :
    errorForStatus libs service resp = .ok resp := by
  refine if_neg fun herror => ?_
  have h₁ := UInt16.lt_iff_toNat_lt.1 h.2
  have h₂ := UInt16.le_iff_toNat_le.1 herror.1
  exact absurd (Nat.lt_of_le_of_lt h₂ h₁) (by decide)

theorem readStatus_conveys {y : Result Unit} (h : MeansDone x y) :
    Conveys y (x.bind (readStatus libs service)) := by
  cases y with
  | ok u =>
      obtain ⟨resp, rfl, hresp⟩ := h
      change readStatus libs service resp = .ok ()
      rw [readStatus, errorForStatus_success hresp]
      rfl
  | error e =>
      cases x with
      | error e => exact ⟨e, rfl⟩
      | ok resp =>
          have herror : ∃ e, errorForStatus libs service resp = .error e :=
            errorForStatus_error (h resp rfl)
          obtain ⟨e, he⟩ := herror
          refine ⟨e, ?_⟩
          change readStatus libs service resp = .error e
          rw [readStatus, he]
          rfl

theorem readJson_success {resp : Response} (h : IsSuccess resp) :
    readJson libs service fromValue resp = jsonBody libs service fromValue resp := by
  rw [readJson, errorForStatus_success h]
  rfl

/-- A body that cannot be read is an error, whatever the status. -/
theorem readJson_error {resp : Response}
    (h : IsError resp ∨ (libs.fromStr resp.body).bind fromValue = none) :
    ∃ e, readJson libs service fromValue resp = .error e := by
  rw [readJson]
  cases hstatus : errorForStatus libs service resp with
  | error e => exact ⟨e, rfl⟩
  | ok resp' =>
      rw [errorForStatus] at hstatus
      split at hstatus
      · cases hstatus
      · next hnot =>
          cases hstatus
          have hbody := h.resolve_left hnot
          refine ⟨upstreamError libs service none, ?_⟩
          change jsonBody libs service fromValue resp = _
          rw [jsonBody, hbody]

theorem readJson_conveys (hdoc : ∀ v a, doc v a → fromValue v = some a) {y : Result α}
    (h : MeansJson libs doc x y) :
    Conveys y (x.bind (readJson libs service fromValue)) := by
  cases y with
  | ok a =>
      obtain ⟨resp, v, rfl, hresp, hbody, hv⟩ := h
      change readJson libs service fromValue resp = .ok a
      rw [readJson_success hresp, jsonBody, hbody, Option.bind_some, hdoc v a hv]
  | error e =>
      cases x with
      | error e => exact ⟨e, rfl⟩
      | ok resp =>
          refine readJson_error ((h resp rfl).imp_right fun hnone => ?_)
          rw [hnone]
          rfl

theorem readList_conveys (hdoc : ∀ v a, doc v a → fromValue v = some a)
    {y : Result (List α)} (h : MeansJson libs (ListOf doc) x y) :
    Conveys y (x.bind (readJson libs service (Value.readList fromValue))) :=
  readJson_conveys (fun _ _ hv => Value.readList_of hdoc hv) h

theorem readUser_conveys {y : Result (Option MasUser)}
    (h : MeansLookup libs (ObjectOf MasUserDocument) x y) :
    Conveys y (x.bind (MasClient.readUser libs)) := by
  cases y with
  | ok found =>
      cases found with
      | none =>
          obtain ⟨resp, rfl, hresp⟩ := h
          exact if_pos hresp
      | some u =>
          obtain ⟨resp, v, rfl, hresp, hbody, hv⟩ := h
          change MasClient.readUser libs resp = .ok (some u)
          have hstatus : resp.status ≠ 404 := by
            intro h404
            have hlt := hresp.2
            rw [h404] at hlt
            exact absurd hlt (by decide)
          obtain ⟨data, hdata, hu⟩ :=
            Option.map_eq_some_iff.1 (MasClient.singleResponse_of hv)
          rw [MasClient.readUser, if_neg hstatus, readJson_success hresp, jsonBody, hbody,
            Option.bind_some, hdata, ← hu]
          rfl
  | error e =>
      cases x with
      | error e => exact ⟨e, rfl⟩
      | ok resp =>
          have hstatus : resp.status ≠ 404 := fun h404 => h.1 ⟨resp, rfl, h404⟩
          change ∃ e, MasClient.readUser libs resp = .error e
          rw [MasClient.readUser, if_neg hstatus]
          have herror : ∃ e, readJson libs "mas"
              (MasClient.singleResponse MasClient.ApiUserResource.fromValue) resp =
              .error e := by
            refine readJson_error ((h.2 resp rfl).imp_right fun hnone => ?_)
            rw [hnone]
            rfl
          obtain ⟨e, he⟩ := herror
          rw [he]
          exact ⟨e, rfl⟩

end

/-! ## Kinds of days -/

namespace World

variable {Allowed Allowed' : World → Fault → Prop} {w w' : World} {c : Call}

/-- What may happen on some days may happen on days of a worse kind. -/
theorem step_days {x : Answer c} (h : ∀ w fault, Allowed w fault → Allowed' w fault)
    (hstep : (days Allowed).step w c x w') : (days Allowed').step w c x w' := by
  obtain ⟨fault, hallowed, hstep⟩ := hstep
  exact ⟨fault, h w fault hallowed, hstep⟩

/-- Nothing that may happen is left out for lists that fit on their pages. -/
theorem step_paged {labels : MasClient.Family → String} {x : Answer c}
    (h : env.step w c x w') : (pagedDay labels).step w c x w' :=
  step_days (fun _ _ hloud _ => hloud) h

/-- What a client says in place of what was meant is no less possible. -/
theorem step_conveys {y z : Answer c} (h : env.step w c y w') (hz : Conveys y z) :
    env.step w c z w' := by
  cases y with
  | ok a => exact hz ▸ h
  | error e =>
      obtain ⟨e', rfl⟩ := hz
      obtain ⟨fault, hallowed, h⟩ := h
      have hfails : w.respond fault c = w.serve c →
          env.step w c (.error e') w' := by
        intro heq
        rw [heq] at h
        refine ⟨.fails e' true, trivial, ?_⟩
        rw [respond, if_pos rfl, h]
      cases fault with
      | none => exact hfails rfl
      | fails e₁ tookEffect =>
          refine ⟨.fails e' tookEffect, trivial, ?_⟩
          cases h
          rfl
      | short warnings cut hcut =>
          by_cases hc : ∃ id, c = .mas (.listSessions id)
          · obtain ⟨id, rfl⟩ := hc
            cases h
          · exact hfails (respond_short fun id heq => hc ⟨id, heq⟩)

/-- A call may always fail without having been made. -/
theorem step_fails (w : World) (c : Call) (e : AppError) :
    env.step w c (.error e) w := ⟨.fails e false, trivial, rfl⟩

/-- A change that leaves alone whatever it leaves active. -/
theorem active_map_sublist {f : MasSession → MasSession}
    (hf : ∀ s, (f s).finishedAt = none → f s = s) (l : List MasSession) :
    ((l.map f).filter fun s => s.finishedAt.isNone).Sublist
      (l.filter fun s => s.finishedAt.isNone) := by
  induction l with
  | nil => exact .slnil
  | cons s l ih =>
      rw [List.map_cons]
      by_cases hs : (f s).finishedAt = none
      · have hsame := hf s hs
        rw [hsame] at hs ⊢
        rw [List.filter_cons_of_pos (by simp [hs]), List.filter_cons_of_pos (by simp [hs])]
        exact ih.cons_cons s
      · rw [List.filter_cons_of_neg (by simp [hs])]
        exact ih.trans ((List.sublist_cons_self s l).filter _)

/-- A session that was not active does not become so. -/
theorem change_active (h : w.Change c w') (id : String) :
    (w'.active id).Sublist (w.active id) := by
  cases h with
  | finish i t =>
      refine active_map_sublist (fun s hs => ?_) (w.sessions id)
      split at hs
      · cases hs
      · next hne => exact if_neg hne
  | deactivate i =>
      show ((if id = i then (w.sessions id).map (ended w.now) else w.sessions id).filter
        fun s => s.finishedAt.isNone).Sublist _
      split
      · refine active_map_sublist (fun s hs => ?_) (w.sessions id)
        cases hs
      · exact .refl _
  | _ => exact .refl _

/-- A user gets no sessions from the calls of the service. -/
theorem Paged.step {labels : MasClient.Family → String} {x : Answer c} (h : w.Paged labels)
    (hstep : (days Allowed).step w c x w') : w'.Paged labels where
  known id s hs := h.known id s ((change_active (step_change hstep) id).subset hs)
  fits id f :=
    ((change_active (step_change hstep) id).filter _).length_le.trans (h.fits id f)

/-- Where every list fits on its page, and so stays, no list is short unsaid. -/
theorem env_of_paged {labels : MasClient.Family → String} {t : List (Event Call Answer)}
    (hp : (pagedDay labels).Path w t w') (h : w.Paged labels) : env.Path w t w' := by
  refine hp.under (fun w c x w' => Paged.step) (fun w c x w' hw hstep => ?_) h
  obtain ⟨fault, hallowed, hstep⟩ := hstep
  exact ⟨fault, hallowed hw, hstep⟩

end World

end MatrixIdentityAdmin.Ref
