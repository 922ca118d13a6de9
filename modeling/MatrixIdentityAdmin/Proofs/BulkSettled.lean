import MatrixIdentityAdmin.Proofs.BulkSteps
import MatrixIdentityAdmin.Proofs.Coverage
import MatrixIdentityAdmin.Proofs.Enforced
import MatrixIdentityAdmin.Proofs.Together

/-!
# A realm that is settled

The bulk request keeps one line for each call that failed and goes on, so a
result page without lines is that of a good day. On a good day the loop is a
walk through the records of the realm, each reconciled in the world the one
before has left, and a reconciliation is about one Matrix id: everybody's own
turn is the only one that counts. In a realm that is settled the second walk
finds nothing to do.
-/

namespace MatrixIdentityAdmin.Ref

open MatrixIdentityAdmin.Lib

variable {state : AppState} {admin : Admin} {bindings : List PolicyBinding}
  {csrf : String} {fuel : Nat} {w w' w'' : World}

/-! ## One line for each call that failed -/

theorem bulkReconcileUser_count {u : KeycloakUser} {acc acc' : BulkReconcileResult}
    {t : List Exchange}
    (hr : (bulkReconcileUser state admin bindings acc u).Runs t acc') :
    acc'.warnings.length = acc.warnings.length + t.countP failed := by
  rw [bulkReconcileUser] at hr
  cases he : u.enabled with
  | false =>
      rw [if_pos (by simp [he])] at hr
      obtain ⟨rfl, rfl⟩ := Prog.runs_ret.1 hr
      rfl
  | true =>
      rw [if_neg (by simp [he])] at hr
      obtain ⟨x, t₁, rfl, hx⟩ := Prog.runs_call.1 hr
      cases x with
      | error e =>
          obtain ⟨rfl, rfl⟩ := Prog.runs_ret.1 hx
          exact List.length_append
      | ok groups =>
          obtain ⟨y, t₂, rfl, hy⟩ := Prog.runs_call.1 hx
          have hblock : (reconcileMembership u.id
              (matrixId u.username state.homeserverDomain) (groups.map (·.name))
              (bulkRoleNames u acc y).1 admin.subject admin.username bindings >>=
              fun r => pure (bulkTally u (bulkRoleNames u acc y).2 r)).Runs t₂
              acc' := hy
          obtain ⟨t₃, t₄, r, rfl, hrun, hret⟩ := hblock.of_bind
          obtain ⟨rfl, rfl⟩ := Prog.runs_ret.1 hret
          obtain ⟨o, rfl⟩ := reconcileMembership_ok hrun
          have hcount := reconcileMembership_count hrun
          have hroles : (bulkRoleNames u acc y).2.warnings.length =
              acc.warnings.length + (!y.isOk).toNat := by
            cases y with
            | ok roles => rfl
            | error e => exact List.length_append
          show ((bulkRoleNames u acc y).2.warnings ++ _).length = _
          rw [List.length_append, List.length_map, hroles, hcount, List.append_nil,
            List.countP_cons_of_neg (by simp [failed, Except.isOk, Except.toBool]),
            List.countP_cons]
          cases y with
          | ok roles => simp [failed, Except.isOk, Except.toBool]
          | error e =>
              simp only [failed, Except.isOk, Except.toBool, Bool.not_false,
                Bool.toNat_true, if_true]
              omega

theorem bulkReconcilePages_count : ∀ {first : UInt32} {acc res : BulkReconcileResult}
    {t : List Exchange},
    (bulkReconcilePages state admin bindings fuel first acc).Runs t (some (.ok res)) →
      res.warnings.length = acc.warnings.length + t.countP failed := by
  induction fuel with
  | zero =>
      intro first acc res t hr
      cases (Prog.runs_ret.1 hr).2
  | succ fuel ih =>
      intro first acc res t hr
      obtain ⟨x, t₁, rfl, hx⟩ := Prog.runs_call.1 hr
      cases x with
      | error e => cases (Prog.runs_ret.1 hx).2
      | ok page =>
          have hloop : (if page.isEmpty then pure (some (.ok acc))
            else page.foldlM (bulkReconcileUser state admin bindings) acc >>= fun acc' =>
              if page.length.toUInt32 < pageSize then pure (some (.ok acc'))
              else bulkReconcilePages state admin bindings fuel
                (first + page.length.toUInt32) acc').Runs t₁ (some (.ok res)) := hx
          rw [List.countP_cons_of_neg (by simp [failed, Except.isOk, Except.toBool])]
          split at hloop
          · obtain ⟨rfl, hres⟩ := Prog.runs_ret.1 hloop
            cases hres
            rfl
          · obtain ⟨t₂, t₃, acc', rfl, hrun, hrest⟩ := hloop.of_bind
            have hpage : acc'.warnings.length =
                acc.warnings.length + t₂.countP failed := by
              refine Prog.Runs.of_foldlM (fun _ (b : BulkReconcileResult) t =>
                b.warnings.length = acc.warnings.length + t.countP failed)
                ?_ rfl hrun
              intro pre u b t hb t' b' hu
              rw [bulkReconcileUser_count hu, hb, List.countP_append, Nat.add_assoc]
            rw [List.countP_append]
            split at hrest
            · obtain ⟨rfl, hres⟩ := Prog.runs_ret.1 hrest
              cases hres
              exact hpage
            · rw [ih hrest, hpage, Nat.add_assoc]

/-- What a request that got to its result page has been through. -/
theorem bulkReconcile_ok {t : List Exchange} {res : BulkReconcileResult}
    (hr : (bulkReconcile state admin fuel csrf).Runs t (some (.ok res))) :
    ∃ (total : UInt32) (bindings : List PolicyBinding) (t' : List Exchange),
      total ≤ maxBulkReconcileUsers ∧ admin.csrfToken = csrf ∧
      t = ⟨.keycloak (.countUsers ""), .ok total⟩ ::
        ⟨.policy .listBindings, .ok bindings⟩ :: t' ∧
      (bulkReconcilePages state admin bindings fuel 0 .empty).Runs t'
        (some (.ok res)) := by
  rw [bulkReconcile, validate] at hr
  by_cases hcsrf : admin.csrfToken = csrf
  · rw [if_pos hcsrf] at hr
    dsimp only at hr
    split at hr
    · cases (Prog.runs_ret.1 hr).2
    · obtain ⟨x, t₁, rfl, hx⟩ := Prog.runs_call.1 hr
      cases x with
      | error e => cases (Prog.runs_ret.1 hx).2
      | ok total =>
          have hlimit : (if total > maxBulkReconcileUsers then _ else _ :
            Async (Option (Result BulkReconcileResult))).Runs t₁ (some (.ok res)) := hx
          split at hlimit
          · cases (Prog.runs_ret.1 hlimit).2
          · next hfew =>
              obtain ⟨y, t₂, rfl, hy⟩ := Prog.runs_call.1 hlimit
              cases y with
              | error e => cases (Prog.runs_ret.1 hy).2
              | ok bindings =>
                  exact ⟨total, bindings, t₂, UInt32.not_lt.1 hfew, hcsrf, rfl, hy⟩
  · rw [if_neg hcsrf] at hr
    cases (Prog.runs_ret.1 hr).2

theorem bulkReconcile_count {t : List Exchange} {res : BulkReconcileResult}
    (hr : (bulkReconcile state admin fuel csrf).Runs t (some (.ok res))) :
    res.warnings.length = t.countP failed := by
  obtain ⟨total, bindings, t', -, -, rfl, hpages⟩ := bulkReconcile_ok hr
  rw [bulkReconcilePages_count hpages, BulkReconcileResult.empty, List.length_nil,
    Nat.zero_add, List.countP_cons_of_neg (by simp [failed, Except.isOk, Except.toBool]),
    List.countP_cons_of_neg (by simp [failed, Except.isOk, Except.toBool])]

theorem bulkReconcile_lists_nothing {t : List Exchange} {res : BulkReconcileResult}
    (hr : (bulkReconcile state admin fuel csrf).Runs t (some (.ok res))) :
    ∀ c ∈ calls t, ∀ id, c ≠ .mas (.listSessions id) := by
  obtain ⟨total, bindings, t', -, hcsrf, -, -⟩ := bulkReconcile_ok hr
  have honly : (bulkReconcile state admin fuel csrf).Only
      fun c => ∀ id, c ≠ .mas (.listSessions id) :=
    bulkReconcile_only hcsrf (fun _ => by simp) (fun _ => by simp) fun _ =>
      bulkReconcilePages_only (fun _ _ => by simp) fun _ _ =>
        bulkReconcileUser_only (fun _ => by simp) (fun _ => by simp) fun _ _ =>
          reconcileMembership_lists_nothing
  exact honly.reaches hr

theorem search_all : w.search "" = w.realm.rows := by
  rw [World.search]
  exact List.filter_eq_self.2 fun _ _ => rfl

theorem step_countUsers {total : UInt32}
    (h : World.env.step w (.keycloak (.countUsers "")) (.ok total) w') :
    total.toNat = w.realm.rows.length ∧ w' = w := by
  have hserve : w.serveKeycloak (.countUsers "") = (.ok total, w') :=
    World.step_ok h (by simp)
  rw [World.serveKeycloak, search_all] at hserve
  split at hserve
  · next hsize =>
      cases hserve
      exact ⟨UInt32.toNat_ofNat_of_lt hsize, rfl⟩
  · cases hserve

/-- Without lines on the result page the walk was that of a good day. -/
theorem bulkReconcile_fine {t : List Exchange} {res : BulkReconcileResult}
    (hr : (bulkReconcile state admin fuel csrf).Runs t (some (.ok res)))
    (hp : World.env.Path w t w') (hclean : res.warnings = []) :
    ∃ t', t = ⟨.keycloak (.countUsers ""), .ok w.realm.rows.length.toUInt32⟩ ::
        ⟨.policy .listBindings, .ok w.listed⟩ :: t' ∧
      w.realm.rows.length ≤ maxBulkReconcileUsers.toNat ∧
      (bulkReconcilePages state admin w.listed fuel 0 .empty).exec World.serve w =
        ⟨some (.ok res), t', w'⟩ := by
  have hlen := bulkReconcile_count hr
  rw [hclean, List.length_nil, eq_comm, List.countP_eq_zero] at hlen
  have hlists := bulkReconcile_lists_nothing hr
  obtain ⟨total, bindings, t', hfew, -, rfl, hpages⟩ := bulkReconcile_ok hr
  obtain ⟨w₁, hcount, w₂, hlist, hp⟩ := hp
  obtain ⟨htotal, rfl⟩ := step_countUsers hcount
  obtain rfl := World.step_listBindings hlist
  obtain rfl := step_reads hlist trivial
  obtain ⟨-, hlen⟩ := List.forall_mem_cons.1 hlen
  obtain ⟨-, hlen⟩ := List.forall_mem_cons.1 hlen
  obtain ⟨-, hlists⟩ := List.forall_mem_cons.1 hlists
  obtain ⟨-, hlists⟩ := List.forall_mem_cons.1 hlists
  refine ⟨t', ?_, ?_, ?_⟩
  · rw [← htotal, Nat.toUInt32, UInt32.ofNat_toNat]
  · rw [← htotal]
    exact hfew
  · refine Prog.exec_of_path (fun s c x s' => serve_of_fine) hpages hp fun e he => ?_
    refine ⟨?_, hlists e.call (List.mem_map_of_mem he)⟩
    simpa [failed] using hlen e he

/-! ## A good day, record by record -/

/-- A record that is disabled is passed over. -/
theorem exec_disabled {u : KeycloakUser} {acc : BulkReconcileResult}
    (he : u.enabled = false) :
    (bulkReconcileUser state admin bindings acc u).exec World.serve w =
      ⟨acc.skip, [], w⟩ := by
  rw [bulkReconcileUser, if_pos (by simp [he])]
  rfl

/-- The round of an enabled record is its reconciliation, after two reads. -/
theorem exec_enabled {u : KeycloakUser} {acc : BulkReconcileResult}
    (hu : w.realm.byId u.id = some u) (he : u.enabled = true) :
    let s := settle u.id (matrixId u.username state.homeserverDomain)
      (w.groupNames u.id) (w.roleNames u.id) admin.subject admin.username bindings w
    let r := (bulkReconcileUser state admin bindings acc u).exec World.serve w
    r.state = s.state ∧ r.trace =
      ⟨.keycloak (.getUserGroups u.id), .ok (w.groups u.id)⟩ ::
        ⟨.keycloak (.getUserRoles u.id), .ok (w.roles u.id)⟩ :: s.trace := by
  have huser : ∀ {α : Type} (a : α), w.withUser u.id a w = (.ok a, w) := by
    intro α a
    rw [World.withUser, hu]
  have hgroups : (Keycloak.getUserGroups u.id).exec World.serve w =
      ⟨.ok (w.groups u.id), [⟨.keycloak (.getUserGroups u.id),
        .ok (w.groups u.id)⟩], w⟩ := Prog.exec_send_eq (huser _)
  have hroles : (Keycloak.getUserRoles u.id).exec World.serve w =
      ⟨.ok (w.roles u.id), [⟨.keycloak (.getUserRoles u.id),
        .ok (w.roles u.id)⟩], w⟩ := Prog.exec_send_eq (huser _)
  intro s r
  have hr : r = (bulkReconcileUser state admin bindings acc u).exec World.serve w := rfl
  rw [bulkReconcileUser, if_neg (by simp [he]), Prog.exec_bind, hgroups] at hr
  dsimp only at hr
  rw [Prog.exec_bind, hroles] at hr
  dsimp only [bulkRoleNames] at hr
  rw [Prog.exec_bind, Prog.exec_pure] at hr
  rw [hr]
  exact ⟨rfl, congrArg (_ :: _ :: ·) (List.append_nil _)⟩

theorem exec_search {first : UInt32} :
    (Keycloak.searchUsers "" pageSize first).exec World.serve w =
      ⟨.ok (Paging.slice pageSize.toNat first.toNat w.realm.rows),
        [pageSearch first (.ok (Paging.slice pageSize.toNat first.toNat
          w.realm.rows))], w⟩ := by
  refine Prog.exec_send_eq ?_
  show (Except.ok (((w.search "").drop first.toNat).take pageSize.toNat), w) = _
  rw [search_all, Paging.slice]

section

variable {users : List KeycloakUser} {I : List KeycloakUser → List Exchange → World → Prop}

/-- What a round carries over to the next record. -/
abbrev Carried (state : AppState) (admin : Admin) (bindings : List PolicyBinding)
    (users : List KeycloakUser) (I : List KeycloakUser → List Exchange → World → Prop) :
    Prop :=
  ∀ pre u post, users = pre ++ u :: post → ∀ acc t w, I pre t w →
    I (pre ++ [u])
      (t ++ ((bulkReconcileUser state admin bindings acc u).exec World.serve w).trace)
      ((bulkReconcileUser state admin bindings acc u).exec World.serve w).state

theorem exec_page (hround : Carried state admin bindings users I)
    {pre page post : List KeycloakUser} (hl : users = pre ++ (page ++ post))
    (acc : BulkReconcileResult) {t : List Exchange} (hI : I pre t w) :
    I (pre ++ page)
      (t ++ ((page.foldlM (bulkReconcileUser state admin bindings) acc).exec World.serve
        w).trace)
      ((page.foldlM (bulkReconcileUser state admin bindings) acc).exec World.serve
        w).state := by
  refine Prog.exec_foldlM (fun done t' _ w' => I (pre ++ done) (t ++ t') w') ?_ ?_
  · intro done u rest hpage t' b w' hw'
    rw [← List.append_assoc, ← List.append_assoc]
    refine hround _ u (rest ++ post) ?_ b _ _ hw'
    rw [hl, hpage, List.append_assoc, List.append_assoc, List.cons_append]
  · rw [List.append_nil, List.append_nil]
    exact hI

/-- The walk through the pages: what a search leaves as it is and a round carries
over to the next record is true of all records in the end. -/
theorem exec_pages (hn : users.length ≤ maxBulkReconcileUsers.toNat)
    (hrealm : ∀ pre t w, I pre t w → w.realm.rows = users)
    (hsearch : ∀ pre t w first x, I pre t w → I pre (t ++ [pageSearch first x]) w)
    (hround : Carried state admin bindings users I) :
    ∀ {first : UInt32} {acc res : BulkReconcileResult} {t : List Exchange} {w : World},
      first.toNat ≤ users.length → I (users.take first.toNat) t w →
      ((bulkReconcilePages state admin bindings fuel first acc).exec World.serve w).value =
        some (.ok res) →
      I users
        (t ++ ((bulkReconcilePages state admin bindings fuel first acc).exec World.serve
          w).trace)
        ((bulkReconcilePages state admin bindings fuel first acc).exec World.serve
          w).state := by
  induction fuel with
  | zero =>
      intro first acc res t w _ _ hvalue
      cases hvalue
  | succ fuel ih =>
      intro first acc res t w hfirst hI hvalue
      rw [bulkReconcilePages, Prog.exec_bind, exec_search, hrealm _ _ _ hI] at hvalue ⊢
      obtain ⟨page, hpage⟩ :
          ∃ page, Paging.slice pageSize.toNat first.toNat users = page := ⟨_, rfl⟩
      have hlen : page.length = min pageSize.toNat (users.length - first.toNat) := by
        rw [← hpage, Paging.length_slice]
      have htake : users.take first.toNat ++ page =
          users.take (first.toNat + page.length) := by
        rw [← hpage, Paging.take_append_slice]
      rw [maxBulkReconcileUsers_toNat] at hn
      rw [hpage] at hvalue ⊢
      dsimp only at hvalue ⊢
      have hfound := hsearch _ _ _ first (.ok page) hI
      by_cases hempty : page.isEmpty = true
      · rw [if_pos hempty] at hvalue ⊢
        rw [List.isEmpty_iff] at hempty
        rw [hempty] at hpage hfound ⊢
        rw [List.take_of_length_le ((Paging.slice_eq_nil (by decide)).1 hpage)] at hfound
        exact hfound
      · have hl : users = users.take first.toNat ++
            (page ++ users.drop (first.toNat + page.length)) := by
          rw [← List.append_assoc, htake, List.take_append_drop]
        have hdone := exec_page hround hl acc hfound
        have hnext : (first + page.length.toUInt32).toNat = first.toNat + page.length :=
          toNat_next (by omega)
        rw [if_neg hempty, Prog.exec_bind] at hvalue ⊢
        dsimp only at hvalue ⊢
        rw [htake] at hdone
        have hshort := short_iff (n := page.length) (by omega)
        by_cases hlast : page.length.toUInt32 < pageSize
        · rw [if_pos hlast] at hvalue ⊢
          rw [hshort] at hlast
          rw [List.take_of_length_le (by omega)] at hdone
          rw [Prog.exec_pure, List.append_nil, ← List.append_assoc]
          exact hdone
        · rw [if_neg hlast] at hvalue ⊢
          rw [← hnext] at hdone
          have hrest := ih (by omega) hdone hvalue
          rw [List.append_assoc, List.append_assoc] at hrest
          exact hrest

end

/-! ## Everybody's own turn -/

/-- A world in which other users were reconciled in the meantime: the memberships
of those are all that differs. -/
structure Around (touched : String → Prop) (w w' : World) : Prop where
  realm : w'.realm = w.realm
  groups : w'.groups = w.groups
  roles : w'.roles = w.roles
  children : w'.children = w.children
  others : ∀ r m, ¬ touched m → (m ∈ w'.members r ↔ m ∈ w.members r)

namespace Around

variable {touched touched' : String → Prop} {m : String}

theorem refl (touched : String → Prop) (w : World) : Around touched w w :=
  ⟨rfl, rfl, rfl, rfl, fun _ _ _ => Iff.rfl⟩

theorem mono (h : Around touched w w') (hle : ∀ m, touched m → touched' m) :
    Around touched' w w' :=
  { h with others := fun r m hm => h.others r m fun ht => hm (hle m ht) }

theorem trans (h : Around touched w w') (h' : Around touched w' w'') :
    Around touched w w'' where
  realm := h'.realm.trans h.realm
  groups := h'.groups.trans h.groups
  roles := h'.roles.trans h.roles
  children := h'.children.trans h.children
  others r m hm := (h'.others r m hm).trans (h.others r m hm)

theorem of_same (h : SameBut m w w') (hm : touched m) : Around touched w w' where
  realm := h.realm
  groups := h.groups
  roles := h.roles
  children := h.children
  others r u hu := h.others r u fun heq => hu (heq ▸ hm)

theorem bit (h : Around touched w w') (hm : ¬ touched m) (r : String) :
    w'.bit m r = w.bit m r := decide_eq_decide.2 (h.others r m hm)

theorem groupNames (h : Around touched w w') : w'.groupNames = w.groupNames := by
  funext k
  rw [World.groupNames, World.groupNames, h.groups]

theorem roleNames (h : Around touched w w') : w'.roleNames = w.roleNames := by
  funext k
  rw [World.roleNames, World.roleNames, h.roles]

end Around

section

variable (state : AppState) (bindings : List PolicyBinding)

/-- What the bindings ask of a room for a user. -/
abbrev World.asked (w : World) (u : KeycloakUser) (r : String) :
    List (Cmd PolicyBinding) :=
  w.commands (w.groupNames u.id) (w.roleNames u.id) bindings r

/-- The user was put where the bindings of `w` ask for. -/
def Placed (w w' : World) (u : KeycloakUser) : Prop :=
  ∀ r, w'.bit (state.matrixIdOf u) r =
    (Latch.run (w.bit (state.matrixIdOf u) r) (w.asked bindings u r)).1

end

/-! ### The first walk -/

section

variable {users : List KeycloakUser}

/-- Two records of a realm have two Matrix ids. -/
theorem matrixIdOf_ne {pre post : List KeycloakUser} {u v : KeycloakUser}
    (hl : w.realm.rows = pre ++ u :: post) (hv : v ∈ pre) :
    state.matrixIdOf v ≠ state.matrixIdOf u := by
  intro heq
  have hnames := w.realm.names
  rw [hl, List.map_append, List.nodup_append] at hnames
  exact hnames.2.2 v.username (List.mem_map_of_mem hv) u.username
    (by simp) (matrixId_inj heq)

theorem not_walked {pre post : List KeycloakUser} {u : KeycloakUser}
    (hl : w.realm.rows = pre ++ u :: post) : ¬ state.Walked pre (state.matrixIdOf u) := by
  intro h
  obtain ⟨v, hv, -, heq⟩ := h
  exact matrixIdOf_ne hl hv heq.symm

theorem AppState.Walked.mono {pre : List KeycloakUser} {m : String}
    (h : state.Walked pre m) (post : List KeycloakUser) :
    state.Walked (pre ++ post) m := by
  obtain ⟨u, hu, he, rfl⟩ := h
  exact ⟨u, List.mem_append_left _ hu, he, rfl⟩

/-- Where the first walk is after the users `pre`. -/
structure Walking (state : AppState) (bindings : List PolicyBinding) (w : World)
    (pre : List KeycloakUser) (w' : World) : Prop where
  around : Around (state.Walked pre) w w'
  placed : ∀ u ∈ pre, u.enabled = true → Placed state bindings w w' u

theorem Walking.start : Walking state bindings w [] w where
  around := .refl _ w
  placed _ hu := absurd hu List.not_mem_nil

theorem Walking.round : ∀ pre u post, w.realm.rows = pre ++ u :: post →
    ∀ acc w', Walking state bindings w pre w' →
      Walking state bindings w (pre ++ [u])
        ((bulkReconcileUser state admin bindings acc u).exec World.serve w').state := by
  intro pre u post hl acc w' h
  have hwiden := h.around.mono fun m hm => hm.mono [u]
  cases he : u.enabled with
  | false =>
      rw [exec_disabled he]
      refine ⟨hwiden, fun v hv hev => ?_⟩
      rcases List.mem_append.1 hv with hv | hv
      · exact h.placed v hv hev
      · rw [List.mem_singleton.1 hv, he] at hev
        cases hev
  | true =>
      have hu : w'.realm.byId u.id = some u := by
        rw [h.around.realm]
        exact Directory.byId_some.2 ⟨by rw [hl]; simp, rfl⟩
      rw [(exec_enabled hu he).1]
      obtain ⟨-, hview⟩ := reconcileMembership_view u.id (state.matrixIdOf u)
        (w'.groupNames u.id) (w'.roleNames u.id) admin.subject admin.username bindings w'
      have hturn : state.Walked (pre ++ [u]) (state.matrixIdOf u) :=
        ⟨u, by simp, he, rfl⟩
      refine ⟨hwiden.trans (.of_same hview.same hturn), fun v hv hev r => ?_⟩
      rcases List.mem_append.1 hv with hv | hv
      · rw [← h.placed v hv hev r]
        exact decide_eq_decide.2 (hview.same.others r _ (matrixIdOf_ne hl hv))
      · obtain rfl := List.mem_singleton.1 hv
        rw [hview.bit r, h.around.bit (not_walked hl), h.around.groupNames,
          h.around.roleNames, commands_congr h.around.children]

theorem bulk_walked {t : List Exchange} {res : BulkReconcileResult}
    (hr : (bulkReconcile state admin fuel csrf).Runs t (some (.ok res)))
    (hp : World.env.Path w t w') (hclean : res.warnings = []) :
    Walking state w.listed w w.realm.rows w' := by
  obtain ⟨t', -, hn, hexec⟩ := bulkReconcile_fine hr hp hclean
  have hwalk := exec_pages (I := fun pre _ w' => Walking state w.listed w pre w') hn
    (fun _ _ w' h => by rw [h.around.realm]) (fun _ _ _ _ _ h => h)
    (fun pre u post hl acc _ w' h => Walking.round pre u post hl acc w' h)
    (Nat.zero_le _) (t := []) .start (congrArg Outcome.value hexec)
  rw [hexec] at hwalk
  exact hwalk

/-- A bulk request whose result page has no line to show has put everybody who is
enabled where the policy wants them, and left everybody else where they were. -/
theorem bulk_settles (state : AppState) (admin : Admin) (fuel : Nat) (csrf : String)
    (t : List Exchange) (res : BulkReconcileResult)
    (hr : (bulkReconcile state admin fuel csrf).Runs t (some (.ok res)))
    (w w' : World) (hp : World.env.Path w t w') (hclean : res.warnings = []) :
    (∀ u ∈ w.realm.rows, u.enabled = true →
      w.Consistent (w.groupNames u.id) (w.roleNames u.id) w.listed →
      w.Enforced (state.matrixIdOf u) (w.groupNames u.id) (w.roleNames u.id)
        w.listed w') ∧
    ∀ m, ¬ state.Walked w.realm.rows m → ∀ r, m ∈ w'.members r ↔ m ∈ w.members r := by
  have hwalk := bulk_walked hr hp hclean
  refine ⟨fun u hu he hcons r => ?_, fun m hm r => hwalk.around.others r m hm⟩
  rw [← final_bit hcons, ← hwalk.placed u hu he r]
  exact decide_eq_true_iff.symm

/-! Staff belong in the lobby, and nobody else does: Ada is, Bob is not, and Carol was,
but is disabled. -/

def staffLobby : PolicyBinding :=
  ⟨"pb-1", .role "staff", .room "!lobby:example.org", none, true,
    "2026-03-09T00:00:00Z", "2026-03-09T00:00:00Z"⟩

def lateForWork : World :=
  { World.empty with
    realm := ⟨[⟨"kc-1", "ada", true⟩, ⟨"kc-2", "bob", true⟩, ⟨"kc-3", "carol", false⟩],
      by decide, by decide⟩
    roles := fun id => if id = "kc-1" then [⟨"r-1", "staff"⟩] else []
    members := fun r => if r = "!lobby:example.org" then
      ["@bob:example.org", "@carol:example.org"] else []
    bindings := [staffLobby] }

def morningRun (w : World) :
    Outcome Call Answer World (Option (Result BulkReconcileResult)) :=
  (bulkReconcile ⟨"example.org", true⟩ ⟨"sub", "root", "token"⟩ 1 "token").exec
    World.serve w

theorem morningRun_runs (w : World) :
    (bulkReconcile ⟨"example.org", true⟩ ⟨"sub", "root", "token"⟩ 1 "token").Runs
      (morningRun w).trace (morningRun w).value := Prog.exec_runs

theorem morningRun_path (w : World) :
    World.env.Path w (morningRun w).trace (morningRun w).state :=
  Prog.exec_path World.step_serve

theorem lateForWork_consistent : ∀ u ∈ lateForWork.realm.rows, u.enabled = true →
    lateForWork.Consistent (lateForWork.groupNames u.id) (lateForWork.roleNames u.id)
      lateForWork.listed := by
  intro u _ _ r hgranted hbarred
  obtain ⟨b, hb, hm, -⟩ := hgranted
  obtain ⟨b', hb', hm', -, -⟩ := hbarred
  obtain rfl : b = staffLobby := List.mem_singleton.1 hb
  obtain rfl : b' = staffLobby := List.mem_singleton.1 hb'
  rw [hm] at hm'
  cases hm'

/-- Ada is let in, Bob is sent out, and Carol is left where she was. -/
theorem lobby_settled :
    let members := (morningRun lateForWork).state.members "!lobby:example.org"
    "@ada:example.org" ∈ members ∧ "@bob:example.org" ∉ members ∧
      "@carol:example.org" ∈ members := by
  intro members
  have hsettled := bulk_settles _ _ _ _ _ ⟨2, 1, []⟩ (morningRun_runs lateForWork)
    lateForWork _ (morningRun_path lateForWork) rfl
  have hplaced := fun u hu he => hsettled.1 u hu he (lateForWork_consistent u hu he)
    "!lobby:example.org"
  have hcarol : ∀ u ∈ lateForWork.realm.rows, u.enabled = true →
      "@carol:example.org" ≠ matrixId u.username "example.org" := by decide
  refine ⟨(hplaced ⟨"kc-1", "ada", true⟩ (by decide) rfl).2 ⟨?_, .inl ⟨staffLobby,
    List.mem_cons_self, rfl, List.mem_cons_self⟩⟩, fun hbob => ?_, (hsettled.2 _ ?_ _).2
    (by decide)⟩
  · intro hbarred
    obtain ⟨b, hb, hm, -, -⟩ := hbarred
    obtain rfl : b = staffLobby := List.mem_singleton.1 hb
    cases hm
  · exact ((hplaced ⟨"kc-2", "bob", true⟩ (by decide) rfl).1 hbob).1
      ⟨staffLobby, List.mem_cons_self, rfl, rfl, List.mem_cons_self⟩
  · intro hwalked
    obtain ⟨u, hu, he, hm⟩ := hwalked
    exact hcarol u hu he hm

/-! ### The second walk -/

/-- A reconciliation that finds every room as it wants it. -/
theorem settle_idle (keycloakId m actorSubject actorUsername : String)
    {groups roles : List String}
    (hidle : ∀ r, (Latch.run (w.bit m r) (w.commands groups roles bindings r)).2 = []) :
    let s := settle keycloakId m groups roles actorSubject actorUsername bindings w
    (∀ c ∈ calls s.trace, c.mutates = none) ∧ Around (fun _ => False) w s.state := by
  intro s
  obtain ⟨-, hview⟩ := reconcileMembership_view keycloakId m groups roles
    actorSubject actorUsername bindings w
  refine ⟨fun c hc => ?_, ?_⟩
  · rw [← Reading.tagged_calls, List.mem_map] at hc
    obtain ⟨d, hd, rfl⟩ := hc
    exact hview.quiet hidle d hd
  · have haround : Around (· = m) w s.state := .of_same hview.same rfl
    refine { haround with others := fun r u _ => ?_ }
    rw [(hview.still r (hidle r)).1]

/-- Where the second walk is: it has changed no room and is where it began. -/
structure Resting (w : World) (t : List Exchange) (w' : World) : Prop where
  around : Around (fun _ => False) w w'
  quiet : ∀ c ∈ calls t, c.mutates = none

theorem Resting.append {t t' : List Exchange} (h : Resting w t w')
    (h' : Resting w' t' w'') : Resting w (t ++ t') w'' where
  around := h.around.trans h'.around
  quiet c hc := by
    rw [calls_append] at hc
    rcases List.mem_append.1 hc with hc | hc
    · exact h.quiet c hc
    · exact h'.quiet c hc

theorem Resting.look {e : Exchange} {t : List Exchange} (he : e.call.mutates = none)
    (h : Resting w t w') : Resting w (e :: t) w' where
  around := h.around
  quiet := List.forall_mem_cons.2 ⟨he, h.quiet⟩

theorem Resting.nil : Resting w [] w :=
  ⟨.refl _ w, fun _ hc => absurd hc List.not_mem_nil⟩

/-- A round finds a user who was placed, and has nothing to do. -/
theorem resting_round {w₀ : World} {u : KeycloakUser} (acc : BulkReconcileResult)
    (hw : Around (state.Walked w₀.realm.rows) w₀ w) (hu : u ∈ w₀.realm.rows)
    (hsettled : u.enabled = true → Placed state bindings w₀ w u ∧
      w₀.Consistent (w₀.groupNames u.id) (w₀.roleNames u.id) bindings)
    (h : Around (fun _ => False) w w') :
    Resting w' ((bulkReconcileUser state admin bindings acc u).exec World.serve w').trace
      ((bulkReconcileUser state admin bindings acc u).exec World.serve w').state := by
  cases he : u.enabled with
  | false =>
      rw [exec_disabled he]
      exact .nil
  | true =>
      obtain ⟨hplaced, hcons⟩ := hsettled he
      have hall := hw.trans (h.mono fun _ hm => False.elim hm)
      have hrow : w'.realm.byId u.id = some u := by
        rw [hall.realm]
        exact Directory.byId_some.2 ⟨hu, rfl⟩
      have hidle : ∀ r, (Latch.run (w'.bit (state.matrixIdOf u) r)
          (w'.commands (w'.groupNames u.id) (w'.roleNames u.id) bindings r)).2 = [] := by
        intro r
        obtain ⟨want, hwant⟩ := commands_agree hcons r
        rw [hall.groupNames, hall.roleNames, commands_congr hall.children,
          h.bit not_false, hplaced r, Latch.run_settled hwant]
      obtain ⟨hquiet, haround⟩ := settle_idle u.id (state.matrixIdOf u) admin.subject
        admin.username hidle
      rw [(exec_enabled hrow he).1, (exec_enabled hrow he).2]
      exact Resting.look rfl (Resting.look rfl ⟨haround, hquiet⟩)

/-- A second bulk request has nothing to do, whoever sends it, as long as the policy
contradicts itself about nobody. -/
theorem bulk_again_rests (state : AppState) (admin admin' : Admin) (fuel fuel' : Nat)
    (csrf csrf' : String) (t t' : List Exchange) (res res' : BulkReconcileResult)
    (hr : (bulkReconcile state admin fuel csrf).Runs t (some (.ok res)))
    (hr' : (bulkReconcile state admin' fuel' csrf').Runs t' (some (.ok res')))
    (w w' w'' : World) (hp : World.env.Path w t w') (hp' : World.env.Path w' t' w'')
    (hclean : res.warnings = []) (hclean' : res'.warnings = [])
    (hcons : ∀ u ∈ w.realm.rows, u.enabled = true →
      w.Consistent (w.groupNames u.id) (w.roleNames u.id) w.listed) :
    (∀ c ∈ calls t', c.mutates = none) ∧
      ∀ r m, m ∈ w''.members r ↔ m ∈ w'.members r := by
  have hwalk := bulk_walked hr hp hclean
  obtain ⟨t₁, rfl, hn, hexec⟩ := bulkReconcile_fine hr' hp' hclean'
  rw [(path_steady hp).listed] at hexec
  have hround : ∀ pre u post, w'.realm.rows = pre ++ u :: post → ∀ acc t w'',
      Resting w' t w'' → Resting w'
        (t ++ ((bulkReconcileUser state admin' w.listed acc u).exec World.serve w'').trace)
        ((bulkReconcileUser state admin' w.listed acc u).exec World.serve w'').state := by
    intro pre u post hl acc t w'' h
    have hu : u ∈ w.realm.rows := by
      rw [← hwalk.around.realm, hl]
      simp
    exact h.append (resting_round acc hwalk.around hu
      (fun he => ⟨hwalk.placed u hu he, hcons u hu he⟩) h.around)
  have hrest := exec_pages (I := fun _ t w'' => Resting w' t w'') hn
    (fun _ _ w'' h => by rw [h.around.realm])
    (fun _ t w'' _ _ h => h.append (.look rfl .nil)) hround
    (Nat.zero_le _) (t := []) .nil (congrArg Outcome.value hexec)
  rw [hexec] at hrest
  have hall := Resting.look (e := ⟨.policy .listBindings, .ok w'.listed⟩) rfl hrest
  exact ⟨(hall.look rfl).quiet, fun r m => hrest.around.others r m not_false⟩

/-- The next morning nobody has to move. -/
theorem lobby_rests :
    (calls (morningRun (morningRun lateForWork).state).trace).filter
      (fun c => c.mutates.isSome) = [] := by
  have hquiet := (bulk_again_rests _ _ _ _ _ _ _ _ _ ⟨2, 1, []⟩ ⟨2, 1, []⟩
    (morningRun_runs lateForWork) (morningRun_runs _) lateForWork _ _
    (morningRun_path lateForWork) (morningRun_path _) rfl rfl
    lateForWork_consistent).1
  exact List.filter_eq_nil_iff.2 fun c hc => by simp [hquiet c hc]

end

end MatrixIdentityAdmin.Ref
