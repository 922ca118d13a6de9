import MatrixIdentityAdmin.Proofs.BulkSteps
import MatrixIdentityAdmin.Spec.Requests
import MatrixIdentityAdmin.Proofs.Clean
import MatrixIdentityAdmin.Proofs.Warranted

/-!
# After an offboarding

A clean offboarding leaves a disabled record and a user outside every target.
`Aside` says that of a later world, and it survives every call of the
reconciling requests that is not a join of that user.

The bulk request never makes one: it passes over disabled records, and two
records have two names. The request for one record makes one as soon as the
record matches a binding, for nothing on its way asks whether the record is
enabled.
-/

namespace MatrixIdentityAdmin.Ref

open MatrixIdentityAdmin.Lib

/-- The world `w` is one in which the user `m` has stayed where the world `w₁`
left them, outside every target. -/
structure Aside (w₁ : World) (m : String) (w : World) : Prop where
  realm : w.realm = w₁.realm
  steady : Steady w₁ w
  out : w.OutOf w₁.listed m

/-- The calls that leave the user `m` aside. -/
def Call.Spares (m : String) (c : Call) : Prop :=
  c.reconciling ∧ ∀ r, c ≠ .synapse (.forceJoinUser m r)

section

variable {w₁ w : World} {m : String}

theorem step_aside {w' : World} {c : Call} {x : Answer c}
    (h : Aside w₁ m w) (hstep : World.env.step w c x w') (hc : c.Spares m) :
    Aside w₁ m w' where
  realm := (step_realm hstep hc.1).trans h.realm
  steady := h.steady.trans (step_steady hstep)
  out := by
    intro b hb r hr
    rw [(step_steady hstep).targets] at hr
    exact step_outside hstep hc.1 (hc.2 r) (h.out b hb r hr)

/-- The environment in which only calls that spare the user are welcome. -/
abbrev sparing (w₁ : World) (m : String) : Env Call Answer World :=
  World.env.demand fun w c => Aside w₁ m w ∧ c.Spares m

/-! ## Reconciling somebody, or nobody -/

section

variable {keycloakId m' actorSubject actorUsername : String}
  {groups roles : List String} {bindings : List PolicyBinding}

/-- A reconciliation of another user, or one in which no binding matches,
spares the user. -/
theorem reconcileMembership_aside
    (hwho : m' ≠ m ∨ ∀ b ∈ bindings, userMatchesBinding b groups roles = false)
    (h : Aside w₁ m w) :
    (reconcileMembership keycloakId m' groups roles actorSubject actorUsername
      bindings).wp (sparing w₁ m) w fun _ w' => Aside w₁ m w' := by
  have hspares : ∀ c, w.Warranted m' groups roles bindings c → c.Spares m := by
    intro c hc
    refine ⟨Warranted.reconciling hc, ?_⟩
    intro r hjoin
    rw [hjoin] at hc
    obtain ⟨hm, b, hb, hmatch, -⟩ := hc
    rcases hwho with hne | hnone
    · exact hne hm.symm
    · rw [hnone b hb] at hmatch
      cases hmatch
  exact reconcileMembership_warranted
    (fun _ c h hc => ⟨h, hspares c hc⟩)
    (fun _ c _ _ h hc hstep => step_aside h hstep (hspares c hc)) h rfl

end

/-! ## Reading -/

/-- Reading something is not a join, and what comes back is true of the world
it was read from. -/
theorem wp_read_aside {c : Call} {F : c.Ret → Prop} (hc : c.Spares m)
    (h : Aside w₁ m w)
    (hF : ∀ a w', World.env.step w c (.ok a) w' → F a) :
    (ask c).wp (sparing w₁ m) w fun x w' =>
      Aside w₁ m w' ∧ ∀ a, x = .ok a → F a := by
  refine Prog.wp_send.2 ⟨⟨h, hc⟩, fun x w' hx => ⟨step_aside h hx hc, ?_⟩⟩
  intro a ha
  rw [ha] at hx
  exact hF a w' hx

theorem getUser_aside (h : Aside w₁ m w) (id : String) :
    (Keycloak.getUser id).wp (sparing w₁ m) w fun x w' => Aside w₁ m w' ∧
      ∀ u, x = .ok u → w₁.realm.byId id = some u :=
  wp_read_aside ⟨trivial, fun _ => nofun⟩ h
    fun _ _ hx => h.realm ▸ (World.step_getUser hx).1

theorem getUserGroups_aside (h : Aside w₁ m w) (id : String) :
    (Keycloak.getUserGroups id).wp (sparing w₁ m) w fun x w' =>
      Aside w₁ m w' ∧ ∀ gs, x = .ok gs → gs = w₁.groups id :=
  wp_read_aside ⟨trivial, fun _ => nofun⟩ h
    fun _ _ hx => h.steady.groups ▸ World.step_getUserGroups hx

theorem getUserRoles_aside (h : Aside w₁ m w) (id : String) :
    (Keycloak.getUserRoles id).wp (sparing w₁ m) w fun x w' =>
      Aside w₁ m w' ∧ ∀ rs, x = .ok rs → rs = w₁.roles id :=
  wp_read_aside ⟨trivial, fun _ => nofun⟩ h
    fun _ _ hx => h.steady.roles ▸ World.step_getUserRoles hx

theorem listBindings_aside (h : Aside w₁ m w) :
    listBindings.wp (sparing w₁ m) w fun x w' =>
      Aside w₁ m w' ∧ ∀ bs, x = .ok bs → bs = w₁.listed :=
  wp_read_aside ⟨trivial, fun _ => nofun⟩ h
    fun _ _ hx => h.steady.listed ▸ World.step_listBindings hx

theorem searchUsers_aside (h : Aside w₁ m w) (query : String)
    (max first : UInt32) :
    (Keycloak.searchUsers query max first).wp (sparing w₁ m) w fun x w' =>
      Aside w₁ m w' ∧ ∀ page, x = .ok page → ∀ v ∈ page, v ∈ w₁.realm.rows :=
  wp_read_aside ⟨trivial, fun _ => nofun⟩ h
    fun _ _ hx => h.realm ▸ World.step_searchUsers hx

theorem countUsers_aside (h : Aside w₁ m w) (query : String) :
    (Keycloak.countUsers query).wp (sparing w₁ m) w fun _ w' => Aside w₁ m w' :=
  Prog.wp_mono (fun _ _ hR => hR.1) (wp_read_aside (F := fun _ => True)
    ⟨trivial, fun _ => nofun⟩ h fun _ _ _ => trivial)

/-! ## The requests -/

section

variable {state : AppState} {admin : Admin} {keycloakId csrf : String}
  {u : KeycloakUser}

theorem not_matched (h : ¬ w₁.Matched keycloakId) : ∀ b ∈ w₁.listed,
    userMatchesBinding b ((w₁.groups keycloakId).map (·.name))
      ((w₁.roles keycloakId).map (·.name)) = false := by
  intro b hb
  have hmem : b ∈ w₁.bindings := (List.mem_insertionSort _).1 hb
  cases hm : userMatchesBinding b ((w₁.groups keycloakId).map (·.name))
      ((w₁.roles keycloakId).map (·.name)) with
  | false => rfl
  | true => exact absurd ⟨b, hmem, hm⟩ h

/-- The Matrix ids of two records differ. -/
theorem matrixId_ne {v : KeycloakUser} (hu : u ∈ w₁.realm.rows)
    (hv : v ∈ w₁.realm.rows) (h : v ≠ u) :
    matrixId v.username state.homeserverDomain ≠
      matrixId u.username state.homeserverDomain :=
  fun hid => Directory.name_ne hv hu h (matrixId_inj hid)

/-- The request for one record. -/
theorem reconcileUser_aside {id : String}
    (hu : w₁.realm.byId keycloakId = some u)
    (hm : m = matrixId u.username state.homeserverDomain)
    (hsafe : ReconcileRequest.Admitted state keycloakId
      (.single admin id csrf) → ¬ w₁.Matched keycloakId)
    (h : Aside w₁ m w) :
    (reconcileUser state admin id csrf).wp (sparing w₁ m) w
      fun _ w' => Aside w₁ m w' := by
  rw [reconcileUser, validate]
  by_cases hcsrf : admin.csrfToken = csrf
  · rw [if_pos hcsrf]
    cases hsynapse : state.synapse with
    | false => exact h
    | true =>
        refine Prog.wp_then (getUser_aside h id) (fun _ _ hR => hR.1) ?_
        intro v w₂ hv
        refine Prog.wp_then (getUserGroups_aside hv.1 id) (fun _ _ hR => hR.1) ?_
        intro gs w₃ hgs
        refine Prog.wp_then (getUserRoles_aside hgs.1 id) (fun _ _ hR => hR.1) ?_
        intro rs w₄ hrs
        refine Prog.wp_then (listBindings_aside hrs.1) (fun _ _ hR => hR.1) ?_
        intro bs w₅ hbs
        refine reconcileMembership_aside ?_ hbs.1
        have hrow : w₁.realm.byId id = some v := hv.2 v rfl
        by_cases hid : id = keycloakId
        · right
          rw [hbs.2 bs rfl, hgs.2 gs rfl, hrs.2 rs rfl, hid]
          exact not_matched (hsafe ⟨hid, hcsrf, hsynapse⟩)
        · left
          rw [hm]
          refine matrixId_ne (Directory.byId_some.1 hu).1
            (Directory.byId_some.1 hrow).1 fun hvu => hid ?_
          rw [← (Directory.byId_some.1 hrow).2, hvu, (Directory.byId_some.1 hu).2]
  · rw [if_neg hcsrf]
    exact h

/-- One round of the user loop: a disabled record is passed over. -/
theorem bulkReconcileUser_aside {bindings : List PolicyBinding}
    {acc : BulkReconcileResult} {v : KeycloakUser}
    (hu : w₁.realm.byId keycloakId = some u) (hdisabled : u.enabled = false)
    (hm : m = matrixId u.username state.homeserverDomain)
    (hv : v ∈ w₁.realm.rows) (h : Aside w₁ m w) :
    (bulkReconcileUser state admin bindings acc v).wp (sparing w₁ m) w
      fun _ w' => Aside w₁ m w' := by
  rw [bulkReconcileUser]
  cases henabled : v.enabled with
  | false => exact h
  | true =>
      refine Prog.wp_seq (getUserGroups_aside h v.id) fun x w₂ hgs => ?_
      cases x with
      | error e => exact hgs.1
      | ok gs =>
          refine Prog.wp_seq (getUserRoles_aside hgs.1 v.id) fun y w₃ hrs => ?_
          refine Prog.wp_seq (reconcileMembership_aside (.inl ?_) hrs.1)
            fun _ _ h => h
          rw [hm]
          refine matrixId_ne (Directory.byId_some.1 hu).1 hv fun hvu => ?_
          rw [hvu, hdisabled] at henabled
          cases henabled

theorem bulkReconcile_aside (hu : w₁.realm.byId keycloakId = some u)
    (hdisabled : u.enabled = false)
    (hm : m = matrixId u.username state.homeserverDomain) {fuel : Nat}
    (h : Aside w₁ m w) :
    (bulkReconcile state admin fuel csrf).wp (sparing w₁ m) w
      fun _ w' => Aside w₁ m w' := by
  refine wp_bulkReconcile h (countUsers_aside h "") fun _ _ w₂ h₂ => ?_
  refine Prog.wp_mono (fun x w₃ hw₃ => ?_) (listBindings_aside h₂)
  cases x with
  | error e => exact hw₃.1
  | ok bindings =>
  refine wp_bulkReconcilePages (fun first w h => ?_) hw₃.1
  refine Prog.wp_mono (fun y w₄ hpage => ?_) (searchUsers_aside h "" pageSize first)
  cases y with
  | error e => exact hpage.1
  | ok page =>
      intro acc
      have hrows : ∀ v ∈ page, v ∈ w₁.realm.rows := hpage.2 page rfl
      refine Prog.wp_foldlM (fun _ _ w => Aside w₁ m w) ?_ hpage.1
      intro pre v post hl acc w hw
      exact bulkReconcileUser_aside hu hdisabled hm (hrows v (by simp [hl])) hw

/-- A request that is not let through to the record, or a record that matches
nothing. -/
theorem body_aside (req : ReconcileRequest)
    (hu : w₁.realm.byId keycloakId = some u) (hdisabled : u.enabled = false)
    (hm : m = matrixId u.username state.homeserverDomain)
    (hsafe : req.Admitted state keycloakId → ¬ w₁.Matched keycloakId)
    (h : Aside w₁ m w) :
    (req.body state).wp (sparing w₁ m) w fun _ w' => Aside w₁ m w' := by
  cases req with
  | single admin id csrf =>
      refine Prog.wp_seq (R := fun _ w' => Aside w₁ m w') ?_ fun _ _ h => h
      refine Prog.wp_then (reconcileUser_aside hu hm hsafe h) ?_ ?_
      · intro _ _ h'
        exact h'
      · intro _ _ h'
        exact h'
  | bulk admin csrf fuel =>
      exact Prog.wp_seq (bulkReconcile_aside hu hdisabled hm h) fun _ _ h => h

/-! ## Sessions -/

/-- As long as no request is let through to a record that matches something,
the user stays aside. -/
theorem session_aside {requests : List ReconcileRequest} {t : List Exchange}
    {w' : World} (hs : Session state w requests t w')
    (hu : w₁.realm.byId keycloakId = some u) (hdisabled : u.enabled = false)
    (hm : m = matrixId u.username state.homeserverDomain)
    (hsafe : ∀ req ∈ requests, req.Admitted state keycloakId →
      ¬ w₁.Matched keycloakId) (h : Aside w₁ m w) :
    (∀ r, Call.synapse (.forceJoinUser m r) ∉ calls t) ∧ Aside w₁ m w' := by
  induction hs with
  | done w => exact ⟨fun _ => List.not_mem_nil, h⟩
  | @next w w₂ w₃ req reqs t ts rest served path later ih =>
      have hwp := body_aside req hu hdisabled hm
        (hsafe req List.mem_cons_self) h
      have hrest := Prog.wp_demand_reaches hwp served path
      have h₂ : Aside w₁ m w₂ := by
        cases rest with
        | ret a => exact hrest
        | call c k => exact hrest.1.1
      obtain ⟨hnone, h₃⟩ :=
        ih (fun req hreq => hsafe req (List.mem_cons_of_mem _ hreq)) h₂
      refine ⟨fun r hr => ?_, h₃⟩
      rw [calls_append, List.mem_append] at hr
      rcases hr with hr | hr
      · obtain ⟨_, -, hspares⟩ := Prog.wp_demand_calls hwp served path _ hr
        exact hspares.2 r rfl
      · exact hnone r hr

/-- A request served on a good day, and then the others. -/
theorem session_next {req : ReconcileRequest} {reqs : List ReconcileRequest}
    {t : List Exchange} {w' : World}
    (h : Session state ((req.body state).exec World.serve w).state reqs t w') :
    Session state w (req :: reqs)
      (((req.body state).exec World.serve w).trace ++ t) w' :=
  .next Prog.exec_runs (Prog.exec_path World.step_serve) h

/-- Requests can always be served. -/
theorem session_served (state : AppState) (requests : List ReconcileRequest) :
    ∀ w : World, ∃ t w', Session state w requests t w' := by
  induction requests with
  | nil => intro w; exact ⟨[], w, .done w⟩
  | cons req reqs ih =>
      intro w
      obtain ⟨t, w', hs⟩ := ih ((req.body state).exec World.serve w).state
      exact ⟨_, w', session_next hs⟩

/-! ## The way back in -/

/-- A record that matches a binding is granted the binding's own room. -/
theorem matched_granted (h : w.Matched keycloakId) :
    ∃ b ∈ w.listed, b.target.roomId ∈ w.targets b ∧
      w.Granted ((w.groups keycloakId).map (·.name))
        ((w.roles keycloakId).map (·.name)) w.listed b.target.roomId := by
  obtain ⟨b, hb, hmatch⟩ := h
  have hlisted : b ∈ w.listed := (List.mem_insertionSort _).2 hb
  have htarget : b.target.roomId ∈ w.targets b := by
    rw [World.targets]
    cases w.children b.target.roomId with
    | nil => exact List.mem_singleton_self _
    | cons c cs => exact List.mem_cons_self
  exact ⟨b, hlisted, htarget, b, hlisted, hmatch, htarget⟩

/-- On a good day the request reads the record, its groups, its roles and the
bindings, and makes the calls of the reconciliation. -/
theorem reconcileUser_calls (admin : Admin)
    (hu : w.realm.byId keycloakId = some u)
    (hcsrf : admin.csrfToken = csrf) (hsynapse : state.synapse = true)
    {c : Call} (hc : c ∈ calls ((reconcileMembership keycloakId
      (matrixId u.username state.homeserverDomain)
      ((w.groups keycloakId).map (·.name)) ((w.roles keycloakId).map (·.name))
      admin.subject admin.username w.listed).exec World.serve w).trace) :
    c ∈ calls ((reconcileUser state admin keycloakId csrf).exec
      World.serve w).trace := by
  have huser : ∀ {α : Type} (a : α),
      w.withUser keycloakId a w = (.ok a, w) := by
    intro α a
    rw [World.withUser, hu]
  have hserve : World.serve w (.keycloak (.getUser keycloakId)) = (.ok u, w) := by
    show w.serveKeycloak (.getUser keycloakId) = _
    rw [World.serveKeycloak, hu]
  have hget : (Keycloak.getUser keycloakId).exec World.serve w =
      ⟨.ok u, [⟨.keycloak (.getUser keycloakId), .ok u⟩], w⟩ :=
    Prog.exec_send_eq hserve
  have hgroups : (Keycloak.getUserGroups keycloakId).exec World.serve w =
      ⟨.ok (w.groups keycloakId), [⟨.keycloak (.getUserGroups keycloakId),
        .ok (w.groups keycloakId)⟩], w⟩ := Prog.exec_send_eq (huser _)
  have hroles : (Keycloak.getUserRoles keycloakId).exec World.serve w =
      ⟨.ok (w.roles keycloakId), [⟨.keycloak (.getUserRoles keycloakId),
        .ok (w.roles keycloakId)⟩], w⟩ := Prog.exec_send_eq (huser _)
  have hbindings : listBindings.exec World.serve w =
      ⟨.ok w.listed, [⟨.policy .listBindings, .ok w.listed⟩], w⟩ := rfl
  rw [reconcileUser, validate, if_pos hcsrf, hsynapse]
  refine Prog.mem_exec_andThen hget ?_
  refine Prog.mem_exec_andThen hgroups ?_
  refine Prog.mem_exec_andThen hroles ?_
  exact Prog.mem_exec_andThen hbindings hc

/-- A request that is let through to a record that matches a binding, and
whose user is outside all targets, makes a join. -/
theorem body_joins {req : ReconcileRequest}
    (hu : w₁.realm.byId keycloakId = some u)
    (hm : m = matrixId u.username state.homeserverDomain)
    (hmatched : w₁.Matched keycloakId) (h : Aside w₁ m w)
    (hadmitted : req.Admitted state keycloakId) :
    ∃ r, Call.synapse (.forceJoinUser m r) ∈
      calls ((req.body state).exec World.serve w).trace := by
  cases req with
  | bulk admin csrf fuel => exact False.elim hadmitted
  | single admin id csrf =>
      obtain ⟨rfl, hcsrf, hsynapse⟩ := hadmitted
      have hu' : w.realm.byId id = some u := by rw [h.realm, hu]
      have hmatched' : w.Matched id := by
        rw [World.Matched, h.steady.bindings, h.steady.groups, h.steady.roles]
        exact hmatched
      have hout : w.OutOf w.listed m := by
        rw [h.steady.listed]
        exact h.out
      obtain ⟨b, hb, htarget, hgranted⟩ := matched_granted hmatched'
      refine ⟨b.target.roomId, ?_⟩
      rw [ReconcileRequest.body, Prog.exec_shape.1, reconcile]
      refine Prog.mem_exec_andThen_left (reconcileUser_calls admin hu' hcsrf
        hsynapse ?_)
      rw [← hm]
      exact granted_joined hgranted (hout b hb _ htarget)

/-- So once a request is let through to such a record, there is a session that
joins its user to something. -/
theorem session_joins {requests : List ReconcileRequest}
    (hu : w₁.realm.byId keycloakId = some u) (hdisabled : u.enabled = false)
    (hm : m = matrixId u.username state.homeserverDomain)
    (hmatched : w₁.Matched keycloakId)
    (hrequest : ∃ req ∈ requests, req.Admitted state keycloakId) :
    ∀ {w : World}, Aside w₁ m w → ∃ t w' r, Session state w requests t w' ∧
      Call.synapse (.forceJoinUser m r) ∈ calls t := by
  induction requests with
  | nil =>
      intro w h
      obtain ⟨req, hreq, -⟩ := hrequest
      cases hreq
  | cons req reqs ih =>
      intro w h
      by_cases hadmitted : req.Admitted state keycloakId
      · obtain ⟨r, hr⟩ := body_joins hu hm hmatched h hadmitted
        obtain ⟨t, w', hs⟩ := session_served state reqs
          ((req.body state).exec World.serve w).state
        refine ⟨_, w', r, session_next hs, ?_⟩
        rw [calls_append, List.mem_append]
        exact .inl hr
      · have hwp := body_aside req hu hdisabled hm
          (fun ha => absurd ha hadmitted) h
        have hnext : Aside w₁ m ((req.body state).exec World.serve w).state :=
          Prog.wp_demand_reaches hwp Prog.exec_runs
            (Prog.exec_path World.step_serve)
        have hrest : ∃ req ∈ reqs, req.Admitted state keycloakId := by
          obtain ⟨req', hreq', ha⟩ := hrequest
          rcases List.mem_cons.mp hreq' with rfl | hreq'
          · exact absurd ha hadmitted
          · exact ⟨req', hreq', ha⟩
        obtain ⟨t, w', r, hs, hr⟩ := ih hrest hnext
        refine ⟨_, w', r, session_next hs, ?_⟩
        rw [calls_append, List.mem_append]
        exact .inr hr

end

end

/-- A clean offboarding leaves the user aside and the record disabled. -/
theorem offboarded {state : AppState} {keycloakId adminSubject adminUsername :
    String} {w₀ w : World} {t₀ : List Exchange} {outcome : WorkflowOutcome}
    (hrun : (offboardUser keycloakId adminSubject adminUsername
      state.homeserverDomain state.synapse w₀.listed).Runs t₀ (.ok outcome))
    (hpath : World.env.Path w₀ t₀ w) (hclean : outcome.warnings = []) :
    ∃ u u', w₀.realm.byId keycloakId = some u ∧
      w.realm.byId keycloakId = some u' ∧ u'.username = u.username ∧
      u'.enabled = false ∧ Steady w₀ w ∧
      Aside w (matrixId u.username state.homeserverDomain) w := by
  obtain ⟨u, hu, hreached⟩ :=
    Prog.wp_reaches offboardUser_clean hrun hpath outcome rfl hclean
  obtain ⟨hdisabled, -, -, hout, -⟩ := hreached
  obtain ⟨u', hu', hoff⟩ := hdisabled
  have hsteady : Steady w₀ w := path_steady hpath
  have hid : u.id = keycloakId := (Directory.byId_some.1 hu).2
  rw [hid] at hu'
  obtain ⟨v, hv, hname⟩ := hsteady.names keycloakId u' hu'
  rw [hu, Option.some.injEq] at hv
  rw [← hv] at hname
  refine ⟨u, u', hu, hu', hname, hoff, hsteady, rfl, Steady.refl w, ?_⟩
  rw [hsteady.listed]
  exact hout

/-- After a clean offboarding every session leaves the user alone exactly when
none of its requests is let through to the record, or the record matches no
binding. -/
theorem offboard_stable_iff {state : AppState} {keycloakId adminSubject
    adminUsername : String} {w₀ w : World} {t₀ : List Exchange}
    {outcome : WorkflowOutcome}
    (hrun : (offboardUser keycloakId adminSubject adminUsername
      state.homeserverDomain state.synapse w₀.listed).Runs t₀ (.ok outcome))
    (hpath : World.env.Path w₀ t₀ w) (hclean : outcome.warnings = [])
    (requests : List ReconcileRequest) :
    ∃ u, w₀.realm.byId keycloakId = some u ∧
      let m := matrixId u.username state.homeserverDomain
      ((∀ t w', Session state w requests t w' →
        (∀ r, Call.synapse (.forceJoinUser m r) ∉ calls t) ∧
          w'.OutOf w₀.listed m) ↔
        ((∃ req ∈ requests, req.Admitted state keycloakId) →
          ¬ w₀.Matched keycloakId)) := by
  obtain ⟨u, u', hu, hu', hname, hoff, hsteady, haside⟩ :=
    offboarded hrun hpath hclean
  refine ⟨u, hu, ?_⟩
  intro m
  have hm : m = matrixId u'.username state.homeserverDomain := by rw [hname]
  have hmatched : w.Matched keycloakId ↔ w₀.Matched keycloakId := by
    rw [World.Matched, World.Matched, hsteady.bindings, hsteady.groups,
      hsteady.roles]
  constructor
  · intro hstable hrequest hmatch
    obtain ⟨t, w', r, hs, hr⟩ := session_joins hu' hoff hm
      (hmatched.2 hmatch) hrequest haside
    exact (hstable t w' hs).1 r hr
  · intro hsafe t w' hs
    have hsafe' : ∀ req ∈ requests, req.Admitted state keycloakId →
        ¬ w.Matched keycloakId := fun req hreq ha hmatch =>
      hsafe ⟨req, hreq, ha⟩ (hmatched.1 hmatch)
    obtain ⟨hnone, haside'⟩ := session_aside hs hu' hoff hm hsafe' haside
    refine ⟨hnone, ?_⟩
    rw [← hsteady.listed]
    exact haside'.out

/-! ## Ada is offboarded -/

section

/-- Ada is staff, and staff belong in the lounge. -/
def adaAtWork : World :=
  { World.empty with
    realm := .single ⟨"kc-1", "ada", true⟩
    groups := fun _ => [⟨"g-1", "staff", "/staff"⟩]
    members := fun r =>
      if r = "!lounge:example.org" then ["@ada:example.org"] else []
    bindings := [⟨"pb-1", .group "staff", .room "!lounge:example.org", none,
      false, "2026-03-09T00:00:00Z", "2026-03-09T00:00:00Z"⟩] }

def exampleState : AppState := ⟨"example.org", true⟩

def exampleAdmin : Admin := ⟨"sub", "root", "token"⟩

/-- Her offboarding on a good day. -/
def adaOffboarded : Outcome Call Answer World (Result WorkflowOutcome) :=
  (offboardUser "kc-1" "sub" "root" exampleState.homeserverDomain
    exampleState.synapse adaAtWork.listed).exec World.serve adaAtWork

theorem adaOffboarded_clean : adaOffboarded.value = .ok .ok := rfl

/-- She is offboarded without a warning, her page is reconciled, and she is
back in the lounge. -/
theorem offboarded_and_joined :
    adaOffboarded.value = .ok .ok ∧
    ∃ t w', Session exampleState adaOffboarded.state
        [.single exampleAdmin "kc-1" "token"] t w' ∧
      Call.synapse (.forceJoinUser "@ada:example.org" "!lounge:example.org") ∈
        calls t ∧
      w'.members "!lounge:example.org" = ["@ada:example.org"] := by
  refine ⟨adaOffboarded_clean, _, _, .next Prog.exec_runs
    (Prog.exec_path World.step_serve) (.done _), ?_, rfl⟩
  decide

/-- The request for everybody leaves her where she is. -/
theorem bulk_leaves_ada :
    adaOffboarded.value = .ok .ok ∧
    ∀ t w', Session exampleState adaOffboarded.state
      [.bulk exampleAdmin "token" 2] t w' →
        ∀ r, Call.synapse (.forceJoinUser "@ada:example.org" r) ∉ calls t := by
  have hrun : (offboardUser "kc-1" "sub" "root" exampleState.homeserverDomain
      exampleState.synapse adaAtWork.listed).Runs adaOffboarded.trace
        (.ok .ok) := adaOffboarded_clean ▸ Prog.exec_runs
  obtain ⟨u, hu, hiff⟩ := offboard_stable_iff hrun
    (Prog.exec_path World.step_serve) rfl [.bulk exampleAdmin "token" 2]
  obtain rfl : ⟨"kc-1", "ada", true⟩ = u := Option.some.inj hu
  refine ⟨adaOffboarded_clean, fun t w' hs r => ?_⟩
  refine (hiff.2 ?_ t w' hs).1 r
  intro h
  obtain ⟨req, hreq, hadmitted⟩ := h
  rw [List.mem_singleton.1 hreq] at hadmitted
  exact False.elim hadmitted

end

end MatrixIdentityAdmin.Ref
