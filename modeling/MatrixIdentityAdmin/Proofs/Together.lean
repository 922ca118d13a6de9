import MatrixIdentityAdmin.Proofs.Clean
import MatrixIdentityAdmin.Proofs.Enforced
import MatrixIdentityAdmin.Proofs.Flash
import MatrixIdentityAdmin.Proofs.Serial

/-!
# Promises among other requests

A redirect without a warning keeps its promise, and goes on keeping it while
requests about other users are served at the same time. The first half is
about one request in a world of its own, handler by handler. The second half
needs nothing of the handlers any more: whatever happened to a request among
the others could have happened to it alone, and the promise is about the part
of the world that looks the same either way.
-/

namespace MatrixIdentityAdmin.Ref

open MatrixIdentityAdmin.Lib

variable {state : AppState} {admin : Admin} {keycloakId csrf k : String}
  {w w' w'' w₀ : World}

/-! ## Redirects with and without a warning -/

theorem users_warned_ne {x z : String} (h : z.toList.take 2 ≠ ['?', 'w']) :
    s!"/users/{k}?warning={x}" ≠ s!"/users/{k}" ++ z := by
  intro heq
  have hl := congrArg String.toList heq
  simp only [toString, String.toList_append, List.append_assoc,
    List.append_cancel_left_eq] at hl
  rw [← hl] at h
  exact h rfl

theorem users_warned_ne_plain {x : String} :
    s!"/users/{k}?warning={x}" ≠ s!"/users/{k}" := by
  have hne := users_warned_ne (k := k) (x := x) (z := "") (by decide)
  rwa [String.append_empty] at hne

theorem users_warned_ne_notice {x y : String} :
    s!"/users/{k}?warning={x}" ≠ s!"/users/{k}?notice={y}" := by
  have htake : ("?notice=" ++ y).toList.take 2 ≠ ['?', 'w'] := by
    rw [String.toList_append]
    exact ne_of_beq_false rfl
  have hne := users_warned_ne (k := k) (x := x) htake
  rwa [← String.append_assoc] at hne

/-- A question mark is not in the plain address of the search. -/
theorem search_ne {a b : String} : a ++ "?warning=" ++ b ≠ "/users/search" := by
  intro heq
  have hmem : '?' ∈ (a ++ "?warning=" ++ b).toList := by
    simp [String.toList_append]
  rw [heq] at hmem
  exact absurd hmem (by decide)

theorem clean_of_plain {o : WorkflowOutcome} {warned plain : String}
    (hne : warned ≠ plain) (h : (if o.hasWarnings then warned else plain) = plain) :
    o.warnings = [] := by
  by_cases hw : o.hasWarnings = true
  · rw [if_pos hw] at h
    exact absurd h hne
  · simpa [WorkflowOutcome.hasWarnings] using hw

theorem clean_of_flash {o : WorkflowOutcome} {notice : String}
    (h : flashRedirect k o notice = s!"/users/{k}?notice={pctEncode notice}") :
    o.warnings = [] := by
  rw [flashRedirect] at h
  exact clean_of_plain users_warned_ne_notice h

/-! ## One request -/

/-- One call and its answer. -/
theorem path_ask {c : Call} {x : Answer c} {t : List Exchange}
    (hr : (ask c).Runs t x) (hp : World.env.Path w t w') :
    World.env.step w c x w' := by
  rw [ask, Prog.runs_send_iff] at hr
  subst hr
  obtain ⟨w₁, hstep, rfl⟩ := hp
  exact hstep

/-- The calls that never change anything. -/
def Call.reads : Call → Prop
  | .keycloak (.getUser _) | .keycloak (.getUserGroups _)
  | .keycloak (.getUserRoles _) | .synapse (.getJoinedRoomMembers _)
  | .synapse (.getSpaceChildren _) | .policy _ => True
  | _ => False

theorem step_reads {c : Call} {x : Answer c} (hs : World.env.step w c x w')
    (hc : c.reads) : w' = w := by
  cases World.step_change hs with
  | none => rfl
  | logout id => exact False.elim hc
  | disable id => exact False.elim hc
  | enable id => exact False.elim hc
  | erase id => exact False.elim hc
  | finish i t => exact False.elim hc
  | deactivate id => exact False.elim hc
  | reactivate id => exact False.elim hc
  | join u r => exact False.elim hc
  | kick u r why => exact False.elim hc
  | power r u level => exact False.elim hc
  | record entry => exact False.elim hc

theorem path_reads {t : List Exchange} : ∀ {w : World},
    World.env.Path w t w' → (∀ c ∈ calls t, c.reads) → w' = w := by
  induction t with
  | nil =>
      intro w hp _
      exact hp.symm
  | cons e t ih =>
      intro w hp hc
      obtain ⟨w₁, hstep, hp⟩ := hp
      obtain ⟨he, hc⟩ := List.forall_mem_cons.1 hc
      rw [ih hp hc, step_reads hstep he]

/-- A request that got past the four reads has read the world it is in. -/
theorem facts_run {α : Type} {f : KeycloakUser → List KeycloakGroup →
    List KeycloakRole → List PolicyBinding → Async (Result α)} {a : α}
    {t : List Exchange}
    (hr : ((Keycloak.getUser k).andThen fun u =>
      (Keycloak.getUserGroups k).andThen fun groups =>
      (Keycloak.getUserRoles k).andThen fun roles =>
      listBindings.andThen fun bindings => f u groups roles bindings).Runs t (.ok a))
    (hp : World.env.Path w t w') :
    ∃ u t', w.realm.byId k = some u ∧ World.env.Path w t' w' ∧
      (f u (w.groups k) (w.roles k) w.listed).Runs t' (.ok a) := by
  obtain ⟨t₁, r₁, u, rfl, h₁, hr₁⟩ := hr.of_andThen_ok
  obtain ⟨t₂, r₂, groups, rfl, h₂, hr₂⟩ := hr₁.of_andThen_ok
  obtain ⟨t₃, r₃, roles, rfl, h₃, hr₃⟩ := hr₂.of_andThen_ok
  obtain ⟨t₄, r₄, bindings, rfl, h₄, hr₄⟩ := hr₃.of_andThen_ok
  obtain ⟨w₁, hp₁, hq₁⟩ := hp.of_append
  obtain ⟨w₂, hp₂, hq₂⟩ := hq₁.of_append
  obtain ⟨w₃, hp₃, hq₃⟩ := hq₂.of_append
  obtain ⟨w₄, hp₄, hq₄⟩ := hq₃.of_append
  obtain ⟨hu, rfl⟩ := World.step_getUser (path_ask h₁ hp₁)
  have hs₂ := path_ask h₂ hp₂
  obtain rfl := step_reads hs₂ trivial
  have hs₃ := path_ask h₃ hp₃
  obtain rfl := step_reads hs₃ trivial
  have hs₄ := path_ask h₄ hp₄
  obtain rfl := step_reads hs₄ trivial
  rw [World.step_getUserGroups hs₂, World.step_getUserRoles hs₃,
    World.step_listBindings hs₄] at hr₄
  exact ⟨u, r₄, hu, hq₄, hr₄⟩

/-- What a workflow without a warning has brought about, in a run. -/
theorem reached_of_run {wf : AccountWorkflow} {domain : String} {t : List Exchange}
    {out : wf.Out} {p : Async (Result wf.Out)}
    (hwp : p.wp World.env w (Promise wf k domain w)) (hr : p.Runs t (.ok out))
    (hp : World.env.Path w t w') (hclean : wf.Clean out) :
    ∃ u, w.realm.byId k = some u ∧ wf.Reached domain u w' :=
  Prog.wp_reaches hwp hr hp out rfl hclean

theorem disable_keeps {t : List Exchange} {location : String}
    (hr : (disable state admin k csrf).Runs t (.ok location))
    (hp : World.env.Path w t w')
    (hplain : UserAction.disable.Plain k location) :
    UserAction.disable.Keeps state k w w' := by
  obtain ⟨o, hrun, rfl⟩ := runs_redirect (checked_runs hr)
  exact reached_of_run disableUser_clean hrun hp
    (clean_of_plain users_warned_ne_plain hplain)

/-- An offboarding that was let through ran with the bindings there are. -/
theorem offboard_ran {t : List Exchange} {location : String}
    (hr : (offboard state admin k csrf).Runs t (.ok location))
    (hp : World.env.Path w t w') : ∃ t' o,
      (offboardUser k admin.subject admin.username state.homeserverDomain state.synapse
        w.listed).Runs t' (.ok o) ∧ World.env.Path w t' w' ∧
      (location = UserAction.plain k .offboard → o.warnings = []) := by
  obtain ⟨t₁, t₂, bindings, rfl, h₁, hrest⟩ := (checked_runs hr).of_andThen_ok
  obtain ⟨o, hrun, rfl⟩ := runs_redirect hrest
  obtain ⟨w₁, hp₁, hp₂⟩ := hp.of_append
  have hs₁ := path_ask h₁ hp₁
  obtain rfl := step_reads hs₁ trivial
  obtain rfl := World.step_listBindings hs₁
  exact ⟨t₂, o, hrun, hp₂, clean_of_plain users_warned_ne_notice⟩

theorem offboard_keeps {t : List Exchange} {location : String}
    (hr : (offboard state admin k csrf).Runs t (.ok location))
    (hp : World.env.Path w t w')
    (hplain : UserAction.offboard.Plain k location) :
    UserAction.offboard.Keeps state k w w' := by
  obtain ⟨t', o, hrun, hpath, hclean⟩ := offboard_ran hr hp
  exact reached_of_run offboardUser_clean hrun hpath (hclean hplain)

theorem reactivate_keeps {t : List Exchange} {location : String}
    (hr : (reactivate state admin k csrf).Runs t (.ok location))
    (hp : World.env.Path w t w')
    (hplain : UserAction.reactivate.Plain k location) :
    UserAction.reactivate.Keeps state k w w' := by
  obtain ⟨o, hrun, rfl⟩ := runs_redirect (checked_runs hr)
  exact reached_of_run reactivateUser_clean hrun hp
    (clean_of_plain (users_warned_ne (z := "?notice=User+reactivated") (by decide))
      hplain)

theorem delete_keeps {t : List Exchange} {location : String}
    (hr : (deleteUserHandler state admin k csrf).Runs t (.ok location))
    (hp : World.env.Path w t w')
    (hplain : UserAction.delete.Plain k location) :
    UserAction.delete.Keeps state k w w' := by
  obtain ⟨result, hrun, rfl⟩ := runs_redirect (checked_runs hr)
  refine reached_of_run deleteUser_clean hrun hp ?_
  cases result with
  | deleted o => exact ⟨o, rfl, clean_of_plain (search_ne (a := "/users/search")) hplain⟩
  | partialFailure o => exact absurd hplain (search_ne (a := "/users/" ++ k))

theorem logout_keeps {t : List Exchange} {location : String}
    (hr : (forceKeycloakLogout admin k csrf).Runs t (.ok location))
    (hp : World.env.Path w t w') : UserAction.logout.Keeps state k w w' := by
  obtain ⟨x, t₁, rfl, hr₁⟩ := Prog.runs_call.1 (checked_runs hr)
  obtain ⟨y, t₂, rfl, hr₂⟩ := Prog.runs_call.1 hr₁
  obtain ⟨w₁, hs₁, w₂, hs₂, hp⟩ := hp
  cases y with
  | error e => cases (Prog.runs_ret.1 hr₂).2
  | ok u =>
      obtain ⟨rfl, hx⟩ := Prog.runs_ret.1 hr₂
      cases hp
      cases x with
      | error e => cases hx
      | ok v =>
          obtain ⟨-, -, rfl⟩ := World.withUser_ok (World.step_ok hs₁ (by simp))
          exact (step_kept hs₂ trivial).loggedOut k (if_pos rfl)

/-- A reconciliation that was let through ran with the facts there are. -/
theorem reconcile_ran {t : List Exchange} {location : String}
    (hr : (reconcile state admin k csrf).Runs t (.ok location))
    (hp : World.env.Path w t w') : ∃ u t' o, w.realm.byId k = some u ∧
      World.env.Path w t' w' ∧
      (reconcileMembership k (matrixId u.username state.homeserverDomain)
        (w.groupNames k) (w.roleNames k) admin.subject admin.username
        w.listed).Runs t' (.ok o) ∧
      (location = UserAction.plain k .reconcile → o.warnings = []) := by
  obtain ⟨o, hrun, rfl⟩ := runs_redirect hr
  rw [reconcileUser] at hrun
  split at hrun
  · cases (Prog.runs_ret.1 hrun).2
  · split at hrun
    · cases (Prog.runs_ret.1 hrun).2
    · obtain ⟨u, t', hu, hpath, hblock⟩ := facts_run hrun hp
      exact ⟨u, t', o, hu, hpath, hblock, clean_of_flash⟩

theorem reconcile_keeps {t : List Exchange} {location : String}
    (hr : (reconcile state admin k csrf).Runs t (.ok location))
    (hp : World.env.Path w t w')
    (hplain : UserAction.reconcile.Plain k location) :
    UserAction.reconcile.Keeps state k w w' := by
  obtain ⟨u, t', o, hu, hpath, hblock, hclean⟩ := reconcile_ran hr hp
  exact ⟨u, hu, reconcileMembership_enforced hblock hpath (hclean hplain)⟩

theorem preview_keeps {t : List Exchange} {p : ReconcilePreview}
    (hr : (reconcilePreview state admin k csrf).Runs t (.ok p))
    (hp : World.env.Path w t w') : UserAction.preview.Keeps state k w w' := by
  have hrun := checked_runs hr
  split at hrun
  · cases (Prog.runs_ret.1 hrun).2
  · obtain ⟨u, t', -, hpath, hblock⟩ := facts_run hrun hp
    have hreads : ∀ c ∈ calls t', c.reads :=
      (previewMembership_only (fun _ => trivial) fun _ => trivial).reaches hblock
    rw [UserAction.Keeps, path_reads hpath hreads]
    exact .refl w

/-- A request that is alone in the world and warns of nothing keeps its promise. -/
theorem UserRequest.run_keeps {q : UserRequest} {out : q.action.Out}
    {t : List Exchange} (hr : (q.run state).Runs t (.ok out))
    (hp : World.env.Path w t w') (hplain : q.action.Plain q.keycloakId out) :
    q.action.Keeps state q.keycloakId w w' := by
  obtain ⟨action, admin, k, csrf⟩ := q
  cases action with
  | disable => exact disable_keeps hr hp hplain
  | offboard => exact offboard_keeps hr hp hplain
  | reactivate => exact reactivate_keeps hr hp hplain
  | delete => exact delete_keeps hr hp hplain
  | logout => exact logout_keeps hr hp
  | reconcile => exact reconcile_keeps hr hp hplain
  | preview => exact preview_keeps hr hp

/-- A record keeps its username. -/
theorem Steady.same_username {u u' : KeycloakUser} (h : Steady w w')
    (hu' : w'.realm.byId k = some u') (hu : w.realm.byId k = some u) :
    u'.username = u.username := by
  obtain ⟨v, hv, hname⟩ := h.names k u' hu'
  rw [hu, Option.some.injEq] at hv
  rw [hname, hv]

/-! ## A promise is about one part of the world -/

namespace World

variable {domain : String} {u : KeycloakUser}

theorem SamePart.disabled (h : SamePart w₀ domain k w w') (hd : w'.Disabled k) :
    w.Disabled k := by
  obtain ⟨u, hu, he⟩ := hd
  exact ⟨u, h.record.trans hu, he⟩

theorem SamePart.enabled (h : SamePart w₀ domain k w w') (hd : w'.Enabled k) :
    w.Enabled k := by
  obtain ⟨u, hu, he⟩ := hd
  exact ⟨u, h.record.trans hu, he⟩

theorem SamePart.sessionFree {n : String} (h : SamePart w₀ domain k w w')
    (hw : Unmoved w₀ w) (hn : w₀.Named k n) (hf : w'.SessionFree n) :
    w.SessionFree n := by
  intro a ha s hs
  have hmap := hw.accounts n
  rw [ha, Option.map_some] at hmap
  obtain ⟨a₀, ha₀, hid⟩ := Option.map_eq_some_iff.1 hmap.symm
  have hsess := h.sessions a.id ⟨n, a₀, hn, ha₀, hid⟩
  exact hf a ((h.account n hn).symm.trans ha) s (hsess ▸ hs)

theorem SamePart.masClosed {n : String} (h : SamePart w₀ domain k w w')
    (hn : w₀.Named k n) (hc : w'.MasClosed n) : w.MasClosed n :=
  fun a ha => hc a ((h.account n hn).symm.trans ha)

theorem SamePart.masOpen {n : String} (h : SamePart w₀ domain k w w')
    (hn : w₀.Named k n) (hc : w'.MasOpen n) : w.MasOpen n :=
  fun a ha => hc a ((h.account n hn).symm.trans ha)

theorem SamePart.outOf {n : String} {bindings : List PolicyBinding}
    (h : SamePart w₀ domain k w w') (hn : w₀.Named k n)
    (htargets : w.targets = w'.targets)
    (ho : w'.OutOf bindings (matrixId n domain)) :
    w.OutOf bindings (matrixId n domain) := by
  intro b hb r hr hm
  rw [htargets] at hr
  exact ho b hb r hr ((h.member n r hn).1 hm)

end World

/-- A promise kept in one world is kept in every world that looks the same to
the user. -/
theorem UserAction.Keeps.congr {a : UserAction} (hw : Unmoved w₀ w)
    (hw' : Unmoved w₀ w') (h : World.SamePart w₀ state.homeserverDomain k w w')
    (hk : a.Keeps state k w₀ w') : a.Keeps state k w₀ w := by
  have hid : ∀ {u}, w₀.realm.byId k = some u → u.id = k := fun hu => (Directory.byId_some.1 hu).2
  have htargets : w.targets = w'.targets :=
    World.targets_congr (hw.steady.children.trans hw'.steady.children.symm)
  cases a with
  | disable =>
      obtain ⟨u, hu, hd, hf⟩ := hk
      obtain rfl := hid hu
      exact ⟨u, hu, h.disabled hd, h.sessionFree hw ⟨u, hu, rfl⟩ hf⟩
  | offboard =>
      obtain ⟨u, hu, hd, hf, hl, ho, hc⟩ := hk
      obtain rfl := hid hu
      have hn : w₀.Named u.id u.username := ⟨u, hu, rfl⟩
      exact ⟨u, hu, h.disabled hd, h.sessionFree hw hn hf, h.login.trans hl,
        h.outOf hn htargets ho, h.masClosed hn hc⟩
  | reactivate =>
      obtain ⟨u, hu, he, ho⟩ := hk
      obtain rfl := hid hu
      exact ⟨u, hu, h.enabled he, h.masOpen ⟨u, hu, rfl⟩ ho⟩
  | delete =>
      obtain ⟨u, hu, he, hc⟩ := hk
      obtain rfl := hid hu
      exact ⟨u, hu, h.record.trans he, h.masClosed ⟨u, hu, rfl⟩ hc⟩
  | logout => exact h.login.trans hk
  | reconcile =>
      obtain ⟨u, hu, henf⟩ := hk
      refine ⟨u, hu, fun hcons r => ?_⟩
      exact (h.member u.username r ⟨u, hu, rfl⟩).trans (henf hcons r)
  | preview => exact hk.trans h.symm

/-! ## Requests served together -/

/-- What came of a request among others could have come of it alone. -/
theorem alone_among {κ : Type} [DecidableEq κ] {q : κ → UserRequest}
    {log : Journal κ Call Answer} {left : (i : κ) → Async (Result (q i).action.Out)}
    (hapart : w₀.SessionsApart)
    (hdistinct : Function.Injective fun i => (q i).keycloakId)
    (hrun : ∀ i, ((q i).run state).Reaches (log.of i) (left i))
    (hpath : World.env.Path w₀ (log.map Prod.snd) w) (i : κ) :
    ∃ t w', ((q i).run state).Reaches t (left i) ∧ World.env.Path w₀ t w' ∧
      World.SamePart w₀ state.homeserverDomain (q i).keycloakId w w' ∧
      Unmoved w₀ w ∧ Unmoved w₀ w' := by
  let P := userParts Fault.Loud state.homeserverDomain w₀ hapart
  have hstart : P.inv w₀ := Unmoved.refl w₀
  obtain ⟨t, w', hr, hpath', hsame⟩ := Parts.alone (P := P) hdistinct hstart
    (fun i => UserRequest.run_mine state (q i)) hrun hpath i
  exact ⟨t, w', hr, hpath', hsame, (P.path_inv hstart hpath).1,
    (P.path_inv hstart hpath').1⟩

/-- Requests about different users are served at the same time. Whoever is
redirected without a warning may count on what that stands for when the dust
has settled, whatever the others did, and whether they finished or not. -/
theorem promises_kept {κ : Type} [DecidableEq κ] (state : AppState) (w₀ : World)
    (hapart : w₀.SessionsApart) (q : κ → UserRequest)
    (hdistinct : Function.Injective fun i => (q i).keycloakId)
    (log : Journal κ Call Answer) (left : (i : κ) → Async (Result (q i).action.Out))
    (hrun : ∀ i, ((q i).run state).Reaches (log.of i) (left i)) (w' : World)
    (hpath : World.env.Path w₀ (log.map Prod.snd) w') (i : κ)
    (out : (q i).action.Out) (hdone : left i = .ret (.ok out))
    (hplain : (q i).action.Plain (q i).keycloakId out) :
    (q i).action.Keeps state (q i).keycloakId w₀ w' := by
  obtain ⟨t, w'', hr, hpath', hsame, hw, hw'⟩ :=
    alone_among hapart hdistinct hrun hpath i
  rw [hdone] at hr
  exact (UserRequest.run_keeps hr hpath' hplain).congr hw hw' hsame

/-! Ada has a session on her phone, and is disabled while Bob is logged out. -/

def phone : MasSession := ⟨"s-1", "compat", none⟩

def onePhone : World := { twoPeople with
  accounts := ⟨[⟨"mas-1", "ada", none⟩], by decide, by decide⟩
  sessions := fun id => if id = "mas-1" then [phone] else [] }

theorem onePhone_sessions {id : String} {s : MasSession} (hs : s ∈ onePhone.sessions id) :
    id = "mas-1" ∧ s = phone := by
  have hmem : s ∈ if id = "mas-1" then [phone] else [] := hs
  split at hmem
  · next hid => exact ⟨hid, List.mem_singleton.1 hmem⟩
  · cases hmem

theorem onePhone_apart : onePhone.SessionsApart := by
  intro a b s hs s' hs' _ _
  rw [(onePhone_sessions hs).1, (onePhone_sessions hs').1]

def disableOf (id : String) : UserRequest :=
  ⟨.disable, ⟨"sub", "root", "csrf"⟩, id, "csrf"⟩

/-- The entry about a step of the disable of Ada. -/
def adaEntry (action : String) (metadata : List (String × MetaValue)) : AuditEntry :=
  ⟨"sub", "root", some "kc-1", some "@ada:example.org", action, .success, metadata⟩

def phoneEntry : AuditEntry :=
  adaEntry "revoke_auth_session_on_disable"
    [("session_id", .str "s-1"), ("session_type", .str "compat")]

def disabledEntry : AuditEntry :=
  adaEntry "disable_identity_account_on_disable"
    [("keycloak_user_id", .str "kc-1"), ("username", .str "ada")]

def atOnce : Bool → UserRequest
  | true => disableOf "kc-1"
  | false => logoutOf "kc-2"

def bothPlain : (i : Bool) → Async (Result (atOnce i).action.Out)
  | true => .ret (.ok "/users/kc-1")
  | false => .ret (.ok "/users/kc-2")

/-- Bob's request is served between the steps of Ada's. -/
def disableMixed : Journal Bool Call Answer :=
  [(true, ⟨.keycloak (.getUser "kc-1"), .ok ⟨"kc-1", "ada", true⟩⟩),
    (true, ⟨.mas (.getUserByUsername "ada"), .ok (some ⟨"mas-1", "ada", none⟩)⟩),
    (false, ⟨.keycloak (.logoutUser "kc-2"), .ok ()⟩),
    (true, ⟨.mas (.listSessions "mas-1"), .ok ⟨[phone], []⟩⟩),
    (true, ⟨.mas (.finishSession "s-1" "compat"), .ok ()⟩),
    (false, ⟨.audit (logoutEntry "kc-2"), .ok ()⟩),
    (true, ⟨.audit phoneEntry, .ok ()⟩),
    (true, ⟨.keycloak (.disableUser "kc-1"), .ok ()⟩),
    (true, ⟨.audit disabledEntry, .ok ()⟩)]

theorem disableMixed_runs (i : Bool) : ((atOnce i).run ⟨"example.org", true⟩).Reaches
    (disableMixed.of i) (bothPlain i) := by
  cases i with
  | true => exact ⟨_, rfl, _, rfl, _, rfl, _, rfl, _, rfl, _, rfl, _, rfl, rfl⟩
  | false => exact ⟨_, rfl, _, rfl, rfl⟩

def afterBoth : World :=
  ((((((onePhone.logout "kc-2").finish "s-1" "compat").record (logoutEntry "kc-2")).record
    phoneEntry).setEnabled "kc-1" false).record disabledEntry)

theorem disableMixed_path :
    World.env.Path onePhone (disableMixed.map Prod.snd) afterBoth :=
  ⟨_, World.step_serve _ _, _, World.step_serve _ _, _, World.step_serve _ _, _,
    World.step_serve _ _, _, World.step_serve _ _, _, World.step_serve _ _, _,
    World.step_serve _ _, _, World.step_serve _ _, _, World.step_serve _ _, rfl⟩

theorem atOnce_injective : Function.Injective fun i => (atOnce i).keycloakId := by
  have h : ∀ i j : Bool, (atOnce i).keycloakId = (atOnce j).keycloakId → i = j := by decide
  exact fun i j => h i j

theorem ada_is_shut_out : afterBoth.Disabled "kc-1" ∧ afterBoth.SessionFree "ada" := by
  obtain ⟨u, hu, hdisabled, hfree⟩ := promises_kept ⟨"example.org", true⟩ onePhone
    onePhone_apart atOnce atOnce_injective disableMixed bothPlain disableMixed_runs
    afterBoth disableMixed_path true "/users/kc-1" rfl rfl
  obtain rfl : ⟨"kc-1", "ada", true⟩ = u := Option.some.inj hu
  exact ⟨hdisabled, hfree⟩

end MatrixIdentityAdmin.Ref
