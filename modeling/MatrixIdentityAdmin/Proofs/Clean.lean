import MatrixIdentityAdmin.Proofs.Winding
import MatrixIdentityAdmin.Proofs.AccountSteps

/-!
# A clean result means the goal was reached

Every step either leaves a warning (or stops the workflow) or has brought its
goal about: that is its specification, one `wp` statement a step. The goals of
winding down survive everything the later steps do (`Kept`), so the workflow's
goals accumulate; the two workflows that also enable or delete are followed
field by field.
-/

namespace MatrixIdentityAdmin.Ref

open MatrixIdentityAdmin.Lib

variable {context keycloakId matrixUserId adminSubject adminUsername : String}
  {homeserverDomain username : String} {w : World}

/-- A loop whose every round leaves a warning or brings about a goal that is
kept brings about the goals of all its rounds, or leaves a warning. -/
theorem loop_clean {β : Type} {G : β → World → Prop}
    {f : WorkflowOutcome → β → Async WorkflowOutcome} {l : List β}
    {outcome : WorkflowOutcome}
    (hkept : ∀ x w w', Kept w w' → G x w → G x w')
    (hf : ∀ o x w, (f o x).wp World.env w fun o' w' => Kept w w' ∧
      (o'.warnings = [] → o.warnings = [] ∧ G x w')) :
    (l.foldlM f outcome).wp World.env w fun o w' => Kept w w' ∧
      (o.warnings = [] → outcome.warnings = [] ∧ ∀ x ∈ l, G x w') := by
  refine Prog.wp_foldlM (fun pre (o : WorkflowOutcome) w' => Kept w w' ∧
    (o.warnings = [] → outcome.warnings = [] ∧ ∀ x ∈ pre, G x w')) ?_
    ⟨Kept.refl w, fun hclean => ⟨hclean, by simp⟩⟩
  intro pre x post _ o w₁ hI
  refine Prog.wp_mono ?_ (hf o x w₁)
  intro o' w₂ h
  refine ⟨hI.1.trans h.1, fun hclean => ?_⟩
  obtain ⟨ho, hx⟩ := h.2 hclean
  obtain ⟨houtcome, hpre⟩ := hI.2 ho
  refine ⟨houtcome, fun y hy => ?_⟩
  rcases List.mem_append.1 hy with hy | hy
  · exact hkept y w₁ w₂ h.1 (hpre y hy)
  · rw [List.mem_singleton.1 hy]
    exact hx

/-! ## Sessions -/

/-- No active session with the id and type of `s` is left. -/
def Finished (s : MasSession) (w : World) : Prop :=
  ∀ id, ∀ s' ∈ w.sessions id, s'.id = s.id → s'.sessionType = s.sessionType →
    s'.finishedAt.isSome

theorem Kept.finished {w' : World} (h : Kept w w') {s : MasSession}
    (hs : Finished s w) : Finished s w' := by
  intro id s' hs' hid hty
  obtain ⟨s₀, hs₀, hid₀, hty₀, hfin⟩ := h.session id s' hs'
  exact hfin (hs id s₀ hs₀ (hid₀.symm.trans hid) (hty₀.symm.trans hty))

theorem finished_finish {s : MasSession} :
    Finished s (w.finish s.id s.sessionType) := by
  intro id s' hs' hid hty
  obtain ⟨s₀, hs₀, rfl⟩ := List.mem_map.1 hs'
  by_cases hkey : s₀.id = s.id ∧ s₀.sessionType = s.sessionType
  · rw [if_pos hkey]
    rfl
  · rw [if_neg hkey] at hid hty
    exact absurd ⟨hid, hty⟩ hkey

/-- Writing an entry down and warning if that failed. -/
theorem wp_logged {α : Type} {outcome : WorkflowOutcome} {entry : AuditEntry}
    {result : Result α} {msg : AppError → String}
    {Q : WorkflowOutcome → World → Prop}
    (h : ∀ (y : Result Unit) w', Kept w w' →
      Q ((outcome.logged y).warnOn result msg) w') :
    (Prog.call (.audit entry) fun y =>
      .ret ((outcome.logged y).warnOn result msg)).wp World.env w Q :=
  ⟨trivial, fun y w' hs => h y w' (step_kept hs trivial)⟩

theorem revokeSession_clean {outcome : WorkflowOutcome} {s : MasSession} :
    (revokeSession context keycloakId matrixUserId adminSubject adminUsername
      outcome s).wp World.env w fun o w' =>
        Kept w w' ∧ (o.warnings = [] → outcome.warnings = [] ∧ Finished s w') := by
  refine ⟨trivial, fun x w₁ hx => wp_logged fun y w₂ hk => ?_⟩
  refine ⟨(step_kept hx trivial).trans hk, fun hclean => ?_⟩
  obtain ⟨hlogged, u, rfl⟩ := WorkflowOutcome.warnOn_clean.1 hclean
  have hserve := World.step_ok hx (by simp)
  refine ⟨(WorkflowOutcome.warnOn_clean.1 hlogged).1, hk.finished ?_⟩
  rw [← show _ = w₁ from congrArg Prod.snd hserve]
  exact finished_finish

/-- The account is the one looked up, and the sessions that were active are over. -/
theorem sessionFree_of_finished {w' : World} {a : MasUser} (hk : Kept w w')
    (ha : w.accounts.byName username = some a)
    (hfin : ∀ s ∈ w.active a.id, Finished s w') : w'.SessionFree username := by
  intro a' ha' s' hs'
  obtain ⟨a₀, ha₀, hid, -⟩ := hk.account _ a' ha'
  obtain rfl : a = a₀ := Option.some.inj (ha.symm.trans ha₀)
  obtain ⟨s, hs, hsid, hsty, hmono⟩ := hk.session _ s' hs'
  rw [hid] at hs
  by_cases hdone : s.finishedAt.isSome = true
  · exact hmono hdone
  · have hmem : s ∈ w.active a.id := World.mem_active.2 ⟨hs, by simpa using hdone⟩
    exact hfin s hmem a'.id s' hs' hsid hsty

theorem revokeAuthSessions_clean :
    (revokeAuthSessions context keycloakId matrixUserId adminSubject
      adminUsername username).wp World.env w fun o w' =>
        Kept w w' ∧ (o.warnings = [] → w'.SessionFree username) := by
  refine ⟨trivial, fun x w₁ hx => ?_⟩
  have hk₁ : Kept w w₁ := step_kept hx trivial
  cases x with
  | error e => exact ⟨hk₁, fun hclean => by cases hclean⟩
  | ok found =>
      obtain ⟨hfound, rfl⟩ := World.step_getUserByUsername hx
      cases found with
      | none =>
          refine ⟨hk₁, fun _ a ha => ?_⟩
          rw [hfound] at ha
          cases ha
      | some authUser =>
          refine ⟨trivial, fun y w₂ hy => ?_⟩
          have hk₂ : Kept w w₂ := step_kept hy trivial
          cases y with
          | error e => exact ⟨hk₂, fun hclean => by cases hclean⟩
          | ok listed =>
              refine Prog.wp_mono ?_ (loop_clean (G := Finished)
                (fun _ _ _ hk hs => hk.finished hs)
                fun _ _ _ => revokeSession_clean)
              intro o w' h
              have hk : Kept w w' := hk₂.trans h.1
              refine ⟨hk, fun hclean => ?_⟩
              obtain ⟨hlisted, hfin⟩ := h.2 hclean
              have hcomplete := World.step_listSessions hy hlisted
              exact sessionFree_of_finished hk hfound fun s hs => hfin s
                (List.mem_filter.2 ⟨hcomplete hs, (List.mem_filter.1 hs).2⟩)

/-! ## The Keycloak account -/

theorem forceIdentityLogout_clean :
    (forceIdentityLogout context keycloakId matrixUserId adminSubject
      adminUsername).wp World.env w fun o w' =>
        Kept w w' ∧ (o.warnings = [] → w'.LoggedOut keycloakId) := by
  refine ⟨trivial, fun x w₁ hx => wp_logged fun y w₂ hk => ?_⟩
  refine ⟨(step_kept hx trivial).trans hk, fun hclean => ?_⟩
  obtain ⟨-, u, rfl⟩ := WorkflowOutcome.warnOn_clean.1 hclean
  obtain ⟨-, -, rfl⟩ := World.withUser_ok (World.step_ok hx (by simp))
  exact hk.loggedOut keycloakId (if_pos rfl)

/-- A fatal step that came back `Ok` made its call and wrote its entry, and
both did. -/
theorem wp_fatal {x : Result Unit} {entry : AuditEntry}
    {Q : Result Unit → World → Prop}
    (herr : ∀ e w', Kept w w' → Q (.error e) w')
    (hok : ∀ w', Kept w w' → x = .ok () → Q (.ok ()) w') :
    ((auditLog entry).andThen fun _ => return x).wp World.env w Q := by
  refine ⟨trivial, fun y w' hs => ?_⟩
  have hk : Kept w w' := step_kept hs trivial
  cases y with
  | error e => exact herr e w' hk
  | ok u =>
      cases x with
      | error e => exact herr e w' hk
      | ok u => exact hok w' hk rfl

theorem disableIdentityAccount_clean :
    (disableIdentityAccount context keycloakId matrixUserId adminSubject
      adminUsername username).wp World.env w fun r w' =>
        Kept w w' ∧ (r = .ok () → w'.Disabled keycloakId) := by
  refine ⟨trivial, fun x w₁ hx => ?_⟩
  have hk₁ : Kept w w₁ := step_kept hx trivial
  refine wp_fatal ?_ ?_
  · exact fun e w' hk => ⟨hk₁.trans hk, nofun⟩
  · intro w' hk hok
    refine ⟨hk₁.trans hk, fun _ => hk.disabled ?_⟩
    cases hok
    obtain ⟨⟨u, hu⟩, -, rfl⟩ := World.withUser_ok (World.step_ok hx (by simp))
    refine ⟨_, World.byId_setEnabled hu, ?_⟩
    rw [if_pos (Directory.byId_some.1 hu).2]
    rfl

/-! ## The rooms -/

/-- The user is in none of the rooms a binding of `roomId` stands for. -/
def OutOfTarget (matrixUserId roomId : String) (w : World) : Prop :=
  ∀ r ∈ expansion roomId (.ok (w.children roomId)), matrixUserId ∉ w.members r

theorem Kept.outOfTarget {w' : World} (h : Kept w w') {roomId : String}
    (ho : OutOfTarget matrixUserId roomId w) :
    OutOfTarget matrixUserId roomId w' := by
  intro r hr hu
  rw [h.children] at hr
  exact ho r hr (h.member r _ hu)

theorem kickMappedRoom_clean {b : PolicyBinding} {outcome : WorkflowOutcome}
    {r : String} :
    (kickMappedRoom context keycloakId matrixUserId adminSubject adminUsername b
      outcome r).wp World.env w fun o w' => Kept w w' ∧
        (o.warnings = [] → outcome.warnings = [] ∧ matrixUserId ∉ w'.members r) := by
  rw [kickMappedRoom_eq]
  refine wp_kickRound trivial ?_ ?_ ?_
  · intro e w₁ hx
    exact ⟨step_kept hx trivial, fun hclean => absurd hclean (by simp)⟩
  · intro ms w₁ hx hout
    cases World.step_ok hx (by simp)
    exact ⟨Kept.refl w, fun hclean => ⟨hclean, hout⟩⟩
  · intro ms w₁ hx _
    refine ⟨trivial, fun y w₂ hy => ⟨trivial, fun z w₃ hz => ?_⟩⟩
    have hk₃ : Kept w₂ w₃ := step_kept hz trivial
    refine ⟨((step_kept hx trivial).trans (step_kept hy trivial)).trans hk₃,
      fun hclean => ?_⟩
    obtain ⟨hlogged, u, rfl⟩ := WorkflowOutcome.warnOn_clean.1 hclean
    refine ⟨(WorkflowOutcome.warnOn_clean.1 hlogged).1, fun hin => ?_⟩
    exact not_mem_kicked hy (hk₃.member r _ hin)

/-- A lookup that leaves no warning found the children there are. -/
theorem expand_clean {roomId : String} {warnings : List String}
    {x : Result (List String)} {w' : World}
    (hs : World.env.step w (.synapse (.getSpaceChildren roomId)) x w')
    (hclean : expandWarnings roomId warnings x = []) :
    warnings = [] ∧
      expansion roomId x = expansion roomId (.ok (w.children roomId)) := by
  cases x with
  | error e => exact absurd hclean (by simp [expandWarnings])
  | ok children =>
      refine ⟨hclean, ?_⟩
      cases World.step_ok hs (by simp)
      rfl

theorem kickMappedBinding_clean {acc : List String × WorkflowOutcome}
    {b : PolicyBinding} :
    (kickMappedBinding context keycloakId matrixUserId adminSubject
      adminUsername acc b).wp World.env w fun acc' w' => Kept w w' ∧
        (acc'.2.warnings = [] → acc.2.warnings = [] ∧
          ((∀ room ∈ acc.1, OutOfTarget matrixUserId room w) →
            OutOfTarget matrixUserId b.target.roomId w' ∧
            ∀ room ∈ acc'.1, OutOfTarget matrixUserId room w')) := by
  obtain ⟨seen, outcome⟩ := acc
  refine wp_kickMappedBinding ?_ ?_
  · intro hmem
    exact ⟨Kept.refl w, fun hclean => ⟨hclean, fun h => ⟨h _ hmem, h⟩⟩⟩
  · intro _
    refine ⟨trivial, fun x w₁ hs => ?_⟩
    have hk₁ : Kept w w₁ := step_kept hs trivial
    refine Prog.wp_mono ?_ (loop_clean
      (G := fun r w => matrixUserId ∉ w.members r)
      (fun r _ _ hk hout hin => hout (hk.member r _ hin))
      fun _ _ _ => kickMappedRoom_clean)
    intro o w₂ h
    have hk : Kept w w₂ := hk₁.trans h.1
    refine ⟨hk, fun hclean => ?_⟩
    obtain ⟨hexpand, hout⟩ := h.2 hclean
    obtain ⟨hwarn, htargets⟩ := expand_clean hs hexpand
    refine ⟨hwarn, fun hseen => ?_⟩
    have hhere : OutOfTarget matrixUserId b.target.roomId w₂ := by
      intro r hr
      rw [hk.children, ← htargets, ← List.mem_reverse] at hr
      exact hout r hr
    refine ⟨hhere, fun room hroom => ?_⟩
    rcases List.mem_cons.mp hroom with rfl | hroom
    · exact hhere
    · exact hk.outOfTarget (hseen room hroom)

theorem kickFromAllMappedRooms_clean {bindings : List PolicyBinding} :
    (kickFromAllMappedRooms context keycloakId matrixUserId adminSubject
      adminUsername bindings).wp World.env w fun o w' =>
        Kept w w' ∧ (o.warnings = [] → w'.OutOf bindings matrixUserId) := by
  rw [kickFromAllMappedRooms, Prog.wp_bind]
  refine Prog.wp_mono ?_ (Prog.wp_foldlM
    (fun pre (acc : List String × WorkflowOutcome) w' => Kept w w' ∧
      (acc.2.warnings = [] →
        (∀ b ∈ pre, OutOfTarget matrixUserId b.target.roomId w') ∧
        ∀ room ∈ acc.1, OutOfTarget matrixUserId room w')) ?_
    ⟨Kept.refl w, fun _ => ⟨by simp, by simp⟩⟩)
  · intro acc w' hI
    exact ⟨hI.1, fun hclean b hb => (hI.2 hclean).1 b hb⟩
  · intro pre b post _ acc w₁ hI
    refine Prog.wp_mono ?_ kickMappedBinding_clean
    intro acc' w₂ h
    refine ⟨hI.1.trans h.1, fun hclean => ?_⟩
    obtain ⟨hacc, hout⟩ := h.2 hclean
    obtain ⟨hpre, hseen⟩ := hI.2 hacc
    obtain ⟨hhere, hseen'⟩ := hout hseen
    refine ⟨fun b' hb' => ?_, hseen'⟩
    rcases List.mem_append.1 hb' with hb' | hb'
    · exact h.1.outOfTarget (hpre b' hb')
    · rw [List.mem_singleton] at hb'
      exact hb' ▸ hhere

/-! ## The MAS account -/

theorem deactivate_clean {masUserId action : String}
    {metadata : List (String × MetaValue)} :
    (fatalStep keycloakId matrixUserId adminSubject adminUsername
      (Mas.deactivateUser masUserId) action metadata).wp World.env w
      fun r w' => Kept w w' ∧ (r = .ok () → ∀ n a,
        w.accounts.byName n = some a → a.id = masUserId → w'.MasClosed n) := by
  refine ⟨trivial, fun x w₁ hx => ?_⟩
  have hk₁ : Kept w w₁ := step_kept hx trivial
  refine wp_fatal ?_ ?_
  · exact fun e w' hk => ⟨hk₁.trans hk, nofun⟩
  · intro w' hk hok
    refine ⟨hk₁.trans hk, fun _ n a ha hid => hk.masClosed ?_⟩
    cases hok
    obtain ⟨-, rfl⟩ := World.withAccount_ok (World.step_ok hx (by simp))
    intro a' ha'
    obtain ⟨b, hb, rfl⟩ := World.byName_setDeactivated ha'
    obtain rfl : a = b := Option.some.inj (ha.symm.trans hb)
    rw [if_pos hid]
    rfl

theorem offboardLookup_clean {outcome : WorkflowOutcome} :
    (offboardLookup username outcome).wp World.env w fun found w' =>
      Kept w w' ∧ (found.2.warnings = [] → outcome.warnings = [] ∧
        w'.accounts.byName username = found.1) := by
  refine ⟨trivial, fun x w' hx => ?_⟩
  cases x with
  | error e =>
      refine ⟨step_kept hx trivial, fun hclean => ?_⟩
      exact absurd hclean (by simp)
  | ok found =>
      obtain ⟨hfound, rfl⟩ := World.step_getUserByUsername hx
      exact ⟨Kept.refl w, fun hclean => ⟨hclean, hfound⟩⟩

/-! ## The workflows -/

theorem getUser_clean :
    (Keycloak.getUser keycloakId).wp World.env w fun r w' =>
      ∀ u, r = .ok u → w.realm.byId keycloakId = some u ∧ w' = w := by
  refine ⟨trivial, fun x w' hx u hu => ?_⟩
  subst hu
  exact World.step_getUser hx

/-- What is to be shown of a workflow, as a postcondition. -/
def Promise (wf : AccountWorkflow) (keycloakId homeserverDomain : String)
    (w : World) (r : Result wf.Out) (w' : World) : Prop :=
  ∀ out, r = .ok out → wf.Clean out → ∃ u,
    w.realm.byId keycloakId = some u ∧ wf.Reached homeserverDomain u w'

theorem promise_error {wf : AccountWorkflow} {e : AppError} {w' : World} :
    Promise wf keycloakId homeserverDomain w (.error e) w' :=
  fun _ hr => by cases hr

/-- Every workflow starts with the record, and ends there if there is none. -/
theorem promise_getUser (wf : AccountWorkflow)
    {f : KeycloakUser → Async (Result wf.Out)}
    (hf : ∀ u, u.id = keycloakId → w.realm.byId keycloakId = some u →
      (f u).wp World.env w (Promise wf keycloakId homeserverDomain w)) :
    ((Keycloak.getUser keycloakId).andThen f).wp World.env w
      (Promise wf keycloakId homeserverDomain w) := by
  refine Prog.wp_then getUser_clean (fun _ _ _ => promise_error) ?_
  intro u w' hget
  obtain ⟨hu, rfl⟩ := hget u rfl
  exact hf u (Directory.byId_some.1 hu).2 hu

theorem disableUser_clean :
    (disableUser keycloakId adminSubject adminUsername homeserverDomain).wp
      World.env w (Promise .disable keycloakId homeserverDomain w) := by
  refine promise_getUser .disable fun u hid hu => ?_
  subst hid
  refine Prog.wp_seq revokeAuthSessions_clean fun o w₁ hsessions => ?_
  refine Prog.wp_then disableIdentityAccount_clean
    (fun _ _ _ => promise_error) fun v w₂ hdisabled => ?_
  intro out hr hclean
  cases hr
  exact ⟨u, hu, hdisabled.2 rfl, hdisabled.1.sessionFree (hsessions.2 hclean)⟩

theorem offboardRooms_clean {synapse : Bool} {bindings : List PolicyBinding}
    {outcome : WorkflowOutcome} :
    (offboardRooms keycloakId adminSubject adminUsername synapse bindings
      matrixUserId outcome).wp World.env w fun o w' => Kept w w' ∧
        (o.warnings = [] → outcome.warnings = [] ∧
          w'.OutOf bindings matrixUserId) := by
  rw [offboardRooms]
  split
  · refine Prog.wp_seq kickFromAllMappedRooms_clean fun o w' h => ?_
    refine ⟨h.1, fun hclean => ?_⟩
    obtain ⟨houtcome, ho⟩ := List.append_eq_nil_iff.1 hclean
    exact ⟨houtcome, h.2 ho⟩
  · split
    · exact ⟨Kept.refl w, fun hclean => absurd hclean (by simp)⟩
    · next hnone =>
        obtain rfl : bindings = [] := by simpa using hnone
        exact ⟨Kept.refl w, fun hclean => ⟨hclean, by simp [World.OutOf]⟩⟩

theorem offboardUser_clean {synapse : Bool} {bindings : List PolicyBinding} :
    (offboardUser keycloakId adminSubject adminUsername homeserverDomain
      synapse bindings).wp World.env w
      (Promise (.offboard synapse bindings) keycloakId homeserverDomain w) := by
  refine promise_getUser (.offboard synapse bindings) fun u hid hu => ?_
  subst hid
  refine Prog.wp_seq revokeAuthSessions_clean fun o₁ w₁ hsessions => ?_
  refine Prog.wp_seq forceIdentityLogout_clean fun o₂ w₂ hlogout => ?_
  refine Prog.wp_then disableIdentityAccount_clean
    (fun _ _ _ => promise_error) fun v w₃ hdisabled => ?_
  refine Prog.wp_seq offboardRooms_clean fun o₃ w₄ hrooms => ?_
  refine Prog.wp_seq offboardLookup_clean fun found w₅ hlookup => ?_
  obtain ⟨authUser, o₄⟩ := found
  -- What a clean outcome says once the MAS account is closed.
  have hgoal : ∀ w₆, Kept w₅ w₆ → o₄.warnings = [] → w₆.MasClosed u.username →
      ∃ u', w.realm.byId u.id = some u' ∧
        (AccountWorkflow.offboard synapse bindings).Reached homeserverDomain u'
          w₆ := by
    intro w₆ hk hclean hclosed
    obtain ⟨ho₃, -⟩ := hlookup.2 hclean
    obtain ⟨ho, hout⟩ := hrooms.2 ho₃
    obtain ⟨ho₁, ho₂⟩ := List.append_eq_nil_iff.1 ho
    have hk₅ : Kept w₄ w₆ := hlookup.1.trans hk
    have hk₄ : Kept w₃ w₆ := hrooms.1.trans hk₅
    have hk₃ : Kept w₂ w₆ := hdisabled.1.trans hk₄
    exact ⟨u, hu, hk₄.disabled (hdisabled.2 rfl),
      (hlogout.1.trans hk₃).sessionFree (hsessions.2 ho₁),
      hk₃.loggedOut _ (hlogout.2 ho₂), hk₅.outOf hout, hclosed⟩
  cases authUser with
  | none =>
      intro out hr hclean
      cases hr
      refine hgoal w₅ (Kept.refl w₅) hclean fun a ha => ?_
      rw [(hlookup.2 hclean).2] at ha
      cases ha
  | some authUser =>
      refine Prog.wp_then deactivate_clean (fun _ _ _ => promise_error) ?_
      intro v w₆ hclosed out hr hclean
      cases hr
      exact hgoal w₆ hclosed.1 hclean
        (hclosed.2 rfl _ authUser (hlookup.2 hclean).2 rfl)

/-- Writing an entry down touches neither directory. -/
theorem step_audit {entry : AuditEntry} {x : Result Unit} {w' : World}
    (h : World.env.step w (.audit entry) x w') :
    w'.realm = w.realm ∧ w'.accounts = w.accounts := by
  cases World.step_change h with
  | none => exact ⟨rfl, rfl⟩
  | record entry => exact ⟨rfl, rfl⟩

theorem enableIdentityAccount_clean :
    (enableIdentityAccount context keycloakId matrixUserId adminSubject
      adminUsername username).wp World.env w fun r w' =>
        r = .ok () → w'.Enabled keycloakId := by
  refine ⟨trivial, fun x w₁ hx => ⟨trivial, fun y w₂ hy => ?_⟩⟩
  cases y with
  | error e => exact nofun
  | ok v =>
      intro hr
      cases hr
      obtain ⟨⟨u, hu⟩, -, rfl⟩ := World.withUser_ok (World.step_ok hx (by simp))
      rw [World.Enabled, (step_audit hy).1]
      refine ⟨_, World.byId_setEnabled hu, ?_⟩
      rw [if_pos (Directory.byId_some.1 hu).2]
      rfl

theorem reactivateAuthAccount_clean {a : MasUser}
    (ha : w.accounts.byName username = some a) (he : w.Enabled keycloakId) :
    (reactivateAuthAccount context keycloakId matrixUserId adminSubject
      adminUsername a.id username).wp World.env w fun o w' =>
        o.warnings = [] → w'.Enabled keycloakId ∧ w'.MasOpen username := by
  refine ⟨trivial, fun x w₁ hx => ⟨trivial, fun y w₂ hy hclean => ?_⟩⟩
  obtain ⟨-, v, rfl⟩ := WorkflowOutcome.warnOn_clean.1 hclean
  obtain ⟨-, rfl⟩ := World.withAccount_ok (World.step_ok hx (by simp))
  rw [World.Enabled, World.MasOpen, (step_audit hy).1, (step_audit hy).2]
  refine ⟨he, fun a' ha' => ?_⟩
  obtain ⟨b, hb, rfl⟩ := World.byName_setDeactivated ha'
  obtain rfl : a = b := Option.some.inj (ha.symm.trans hb)
  rw [if_pos rfl]
  rfl

theorem reactivateLookup_clean (he : w.Enabled keycloakId) :
    (reactivateLookup keycloakId adminSubject adminUsername username
      matrixUserId).wp World.env w fun o w' =>
        o.warnings = [] → w'.Enabled keycloakId ∧ w'.MasOpen username := by
  refine ⟨trivial, fun x w' hx => ?_⟩
  cases x with
  | error e => exact fun hclean => absurd hclean (by simp)
  | ok found =>
      obtain ⟨hfound, rfl⟩ := World.step_getUserByUsername hx
      cases found with
      | none =>
          refine fun _ => ⟨he, fun a ha => ?_⟩
          rw [hfound] at ha
          cases ha
      | some a =>
          show Prog.wp _ (if (MasUser.deactivatedAt a).isSome then _ else _) _ _
          split
          · refine Prog.wp_seq (reactivateAuthAccount_clean hfound he) ?_
            intro o w₁ h hclean
            exact h hclean
          · next hopen =>
              refine fun _ => ⟨he, fun a' ha' => ?_⟩
              obtain rfl : a = a' := Option.some.inj (hfound.symm.trans ha')
              simpa using hopen

theorem reactivateUser_clean :
    (reactivateUser keycloakId adminSubject adminUsername homeserverDomain).wp
      World.env w (Promise .reactivate keycloakId homeserverDomain w) := by
  refine promise_getUser .reactivate fun u hid hu => ?_
  subst hid
  refine Prog.wp_then enableIdentityAccount_clean
    (fun _ _ _ => promise_error) fun v w₁ henabled => ?_
  refine Prog.wp_seq (reactivateLookup_clean (henabled rfl)) ?_
  intro o w₂ h out hr hclean
  cases hr
  exact ⟨u, hu, h hclean⟩

theorem deleteLookup_clean :
    (deleteLookup username).wp World.env w fun found w' =>
      found.2.warnings = [] → w'.accounts.byName username = found.1 := by
  refine ⟨trivial, fun x w' hx => ?_⟩
  cases x with
  | error e => exact fun hclean => absurd hclean (by simp)
  | ok found =>
      obtain ⟨hfound, rfl⟩ := World.step_getUserByUsername hx
      exact fun _ => hfound

theorem deleteMasUser_clean {masUser : Option MasUser} :
    (deleteMasUser keycloakId adminSubject adminUsername matrixUserId username
      masUser).wp World.env w fun r w' =>
        r = .ok () → w.accounts.byName username = masUser →
          w'.MasClosed username := by
  cases masUser with
  | none =>
      intro _ hnone a ha
      rw [hnone] at ha
      cases ha
  | some a =>
      refine Prog.wp_mono ?_ deactivate_clean
      exact fun r w' h hr ha => h.2 hr username a ha rfl

theorem deleteKeycloakUser_clean {masUser : Option MasUser}
    {outcome : WorkflowOutcome} :
    (deleteKeycloakUser keycloakId adminSubject adminUsername matrixUserId
      username masUser outcome).wp World.env w fun r w' =>
        ∀ o, r = .ok (.deleted o) → o = outcome ∧
          w'.realm.byId keycloakId = none ∧ w'.accounts = w.accounts := by
  refine ⟨trivial, fun x w₁ hx => ⟨trivial, fun y w₂ hy => ?_⟩⟩
  cases y with
  | error e =>
      intro o hr
      cases hr
  | ok v =>
      cases x with
      | error e =>
          show Prog.wp _ (if masUser.isSome then _ else _) _ _
          split
          · intro o hr
            cases hr
          · intro o hr
            cases hr
      | ok v =>
          intro o hr
          cases hr
          obtain ⟨-, -, rfl⟩ := World.withUser_ok (World.step_ok hx (by simp))
          rw [(step_audit hy).1, (step_audit hy).2]
          exact ⟨rfl, Directory.byId_erase_self, rfl⟩

theorem deleteUser_clean :
    (deleteUser keycloakId adminSubject adminUsername homeserverDomain).wp
      World.env w (Promise .delete keycloakId homeserverDomain w) := by
  refine promise_getUser .delete fun u hid hu => ?_
  subst hid
  refine Prog.wp_seq deleteLookup_clean fun found w₁ hlookup => ?_
  obtain ⟨masUser, outcome⟩ := found
  refine Prog.wp_then deleteMasUser_clean (fun _ _ _ => promise_error) ?_
  intro v w₂ hclosed
  refine Prog.wp_mono ?_ deleteKeycloakUser_clean
  intro r w₃ hdeleted out hr hclean
  obtain ⟨o, rfl, hwarn⟩ := hclean
  obtain ⟨rfl, hgone, haccounts⟩ := hdeleted o hr
  refine ⟨u, hu, hgone, ?_⟩
  rw [World.MasClosed, haccounts]
  exact hclosed rfl (hlookup hwarn)

/-- A workflow that reports success without a warning has reached its goal,
whatever failed on the way. -/
theorem AccountWorkflow.clean_reached (wf : AccountWorkflow)
    {t : List Exchange} {out : wf.Out} {w' : World}
    (hrun : (wf.run keycloakId adminSubject adminUsername
      homeserverDomain).Runs t (.ok out))
    (hpath : World.env.Path w t w') (hclean : wf.Clean out) :
    ∃ u, w.realm.byId keycloakId = some u ∧
      wf.Reached homeserverDomain u w' := by
  have hwp : (wf.run keycloakId adminSubject adminUsername homeserverDomain).wp
      World.env w (Promise wf keycloakId homeserverDomain w) := by
    cases wf with
    | disable => exact disableUser_clean
    | offboard synapse bindings => exact offboardUser_clean
    | reactivate => exact reactivateUser_clean
    | delete => exact deleteUser_clean
  exact Prog.wp_reaches hwp hrun hpath out rfl hclean

/-- Ada has a session open and is disabled. -/
theorem ada_disabled :
    let w : World := { World.empty with
      realm := .single ⟨"kc-1", "ada", true⟩
      accounts := .single ⟨"mas-1", "ada", none⟩
      sessions := fun _ => [⟨"s-1", "compat", none⟩] }
    let r := (AccountWorkflow.disable.run "kc-1" "sub" "root"
      "example.org").exec World.serve w
    r.value = .ok .ok ∧ ∃ u, w.realm.byId "kc-1" = some u ∧
      AccountWorkflow.disable.Reached "example.org" u r.state := by
  intro w r
  have hv : r.value = .ok .ok := rfl
  have hrun : (AccountWorkflow.disable.run "kc-1" "sub" "root"
      "example.org").Runs r.trace (.ok .ok) := hv ▸ Prog.exec_runs
  exact ⟨hv, AccountWorkflow.clean_reached .disable hrun
    (Prog.exec_path World.step_serve) rfl⟩

end MatrixIdentityAdmin.Ref
