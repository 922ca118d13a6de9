import MatrixIdentityAdmin.Proofs.Together

/-!
# There and back

An offboarding takes a user out of the rooms the policy speaks of and out of no
others, a reactivation changes no room, and a reconciliation puts the user where
the policy wants them. So somebody who comes back is in the rooms that are granted
and in those the policy never spoke of, and what was ended stays ended: no session
is opened again and no login restored.
-/

namespace MatrixIdentityAdmin.Ref

open MatrixIdentityAdmin.Lib

variable {w w' w₀ : World} {bindings : List PolicyBinding}
  {keycloakId m adminSubject adminUsername : String}

/-! ## What no call undoes -/

theorem step_loggedOut {c : Call} {x : Answer c} {id : String}
    (hs : World.env.step w c x w') (h : w.LoggedOut id) : w'.LoggedOut id := by
  cases World.step_change hs with
  | none => exact h
  | logout j =>
      show (if id = j then false else w.loggedIn id) = false
      split
      · rfl
      · exact h
  | disable j => exact h
  | enable j => exact h
  | erase j => exact h
  | finish i t => exact h
  | deactivate j => exact h
  | reactivate j => exact h
  | join u r => exact h
  | kick u r why => exact h
  | power r u level => exact h
  | record entry => exact h

/-- The sessions that were over are over. -/
def Ended (w w' : World) : Prop :=
  ∀ id, (∀ s ∈ w.sessions id, s.finishedAt.isSome) →
    ∀ s ∈ w'.sessions id, s.finishedAt.isSome

theorem ended_finish {i t : String} : Ended w (w.finish i t) := by
  intro id h s' hs'
  obtain ⟨s, hs, rfl⟩ := List.mem_map.1 hs'
  split
  · rfl
  · exact h s hs

theorem ended_deactivate {j : String} : Ended w (w.deactivate j) := by
  intro id h s' hs'
  obtain ⟨s, hs, -, -, hstill⟩ := World.mem_sessions_deactivate hs'
  exact hstill (h s hs)

theorem step_ended {c : Call} {x : Answer c} (hs : World.env.step w c x w') :
    Ended w w' := by
  cases World.step_change hs with
  | finish i t => exact ended_finish
  | none => exact fun _ h => h
  | logout j => exact fun _ h => h
  | disable j => exact fun _ h => h
  | enable j => exact fun _ h => h
  | erase j => exact fun _ h => h
  | deactivate j => exact ended_deactivate
  | reactivate j => exact fun _ h => h
  | join u r => exact fun _ h => h
  | kick u r why => exact fun _ h => h
  | power r u level => exact fun _ h => h
  | record entry => exact fun _ h => h

theorem path_ended {t : List Exchange} : ∀ {w : World}, World.env.Path w t w' →
    Ended w w' ∧ ∀ id, w.LoggedOut id → w'.LoggedOut id := by
  induction t with
  | nil =>
      intro w hp
      cases hp
      exact ⟨fun _ h => h, fun _ h => h⟩
  | cons e t ih =>
      intro w hp
      obtain ⟨w₁, hs, hp⟩ := hp
      obtain ⟨hended, hout⟩ := ih hp
      exact ⟨fun id h => hended id (step_ended hs id h),
        fun id h => hout id (step_loggedOut hs h)⟩

/-- A name that has no active session has none later. -/
theorem Ended.sessionFree {n : String} (h : Ended w w') (hw : Unmoved w w')
    (hf : w.SessionFree n) : w'.SessionFree n := by
  intro a' ha'
  have hmap := hw.accounts n
  rw [ha', Option.map_some] at hmap
  obtain ⟨a, ha, hid⟩ := Option.map_eq_some_iff.1 hmap.symm
  rw [← hid]
  exact h a.id (hf a ha)

theorem path_unmoved {t : List Exchange} : ∀ {w : World}, World.env.Path w t w' →
    Unmoved w w' := by
  induction t with
  | nil =>
      intro w hp
      cases hp
      exact Unmoved.refl _
  | cons e t ih =>
      intro w hp
      obtain ⟨w₁, hs, hp⟩ := hp
      exact (step_unmoved hs).trans (ih hp)

/-! ## Rooms the policy does not speak of -/

/-- Nobody has left a room that is no target, and nobody has joined any. -/
structure Intact (w₀ : World) (bindings : List PolicyBinding) (w : World) : Prop where
  children : w.children = w₀.children
  joined : ∀ r u, u ∈ w.members r → u ∈ w₀.members r
  member : ∀ r, (∀ b ∈ bindings, r ∉ w₀.targets b) → ∀ u,
    u ∈ w₀.members r → u ∈ w.members r

/-- Kicks are from targets, and there are no joins. -/
def Call.Within (w₀ : World) (bindings : List PolicyBinding) : Call → Prop
  | .synapse (.forceJoinUser ..) => False
  | .synapse (.kickUserFromRoom _ r _) => ∃ b ∈ bindings, r ∈ w₀.targets b
  | _ => True

theorem step_intact {c : Call} {x : Answer c} (h : Intact w₀ bindings w)
    (hs : World.env.step w c x w') (hc : c.Within w₀ bindings) :
    Intact w₀ bindings w' := by
  have hchildren := (step_steady hs).children.trans h.children
  cases World.step_change hs with
  | none => exact h
  | logout j => exact ⟨hchildren, h.joined, h.member⟩
  | disable j => exact ⟨hchildren, h.joined, h.member⟩
  | enable j => exact ⟨hchildren, h.joined, h.member⟩
  | erase j => exact ⟨hchildren, h.joined, h.member⟩
  | finish i t => exact ⟨hchildren, h.joined, h.member⟩
  | deactivate j => exact ⟨hchildren, h.joined, h.member⟩
  | reactivate j => exact ⟨hchildren, h.joined, h.member⟩
  | join v y => exact False.elim hc
  | kick v y why =>
      refine ⟨hchildren, fun r u hu => h.joined r u (World.mem_kick.1 hu).1,
        fun r hr u hu => World.mem_kick.2 ⟨h.member r hr u hu, fun heq => ?_⟩⟩
      obtain ⟨b, hb, hy⟩ := hc
      exact hr b hb (heq.1 ▸ hy)
  | power y v level => exact ⟨hchildren, h.joined, h.member⟩
  | record entry => exact ⟨hchildren, h.joined, h.member⟩

/-- A program whose kicks are from targets leaves the other rooms alone. -/
theorem intact_of_only {α : Type} {p : Async α}
    (hp : p.Only (Call.Within w₀ bindings)) (h : Intact w₀ bindings w) :
    p.wp World.env w fun _ w' => Intact w₀ bindings w' :=
  hp.wp (Intact w₀ bindings) (fun _ _ _ _ => trivial)
    (fun _ _ _ _ hc h hs => step_intact h hs hc) h

/-- What a binding was expanded to, its children read or not, are targets of it. -/
theorem mem_targets {b : PolicyBinding} {x : Result (List String)} {r : String}
    (hs : World.env.step w (.synapse (.getSpaceChildren b.target.roomId)) x w')
    (hr : r ∈ expansion b.target.roomId x) : r ∈ w.targets b := by
  cases x with
  | ok children =>
      cases World.step_ok hs (by simp)
      exact hr
  | error e =>
      rw [World.targets]
      obtain rfl := List.mem_singleton.1 hr
      cases w.children b.target.roomId with
      | nil => exact List.mem_cons_self
      | cons child children => exact List.mem_cons_self

section

variable {context : String}

theorem kickMappedBinding_intact {acc : List String × WorkflowOutcome}
    {b : PolicyBinding} (hb : b ∈ bindings) (h : Intact w₀ bindings w) :
    (kickMappedBinding context keycloakId m adminSubject adminUsername acc b).wp
      World.env w fun _ w' => Intact w₀ bindings w' := by
  obtain ⟨seen, outcome⟩ := acc
  refine wp_kickMappedBinding (fun _ => h) fun _ => ⟨trivial, fun x w₁ hs => ?_⟩
  have h₁ := step_intact h hs trivial
  refine intact_of_only (Prog.Only.foldlM (fun r hr _ => ?_) _) h₁
  have htarget : ∃ b ∈ bindings, r ∈ w₀.targets b := by
    refine ⟨b, hb, ?_⟩
    rw [← World.targets_congr h.children]
    exact mem_targets hs (List.mem_reverse.1 hr)
  exact kickMappedRoom_only trivial htarget fun _ _ _ => trivial

theorem kickFromAllMappedRooms_intact (h : Intact w₀ bindings w) :
    (kickFromAllMappedRooms context keycloakId m adminSubject adminUsername
      bindings).wp World.env w fun _ w' => Intact w₀ bindings w' := by
  rw [kickFromAllMappedRooms, Prog.wp_bind]
  refine Prog.wp_foldlM (fun _ (_ : List String × WorkflowOutcome) w' =>
    Intact w₀ bindings w') ?_ h
  intro pre b post hl acc w₁ h₁
  exact kickMappedBinding_intact (by rw [hl]; simp) h₁

end

theorem offboardRooms_intact {synapse : Bool} {outcome : WorkflowOutcome}
    (h : Intact w₀ bindings w) :
    (offboardRooms keycloakId adminSubject adminUsername synapse bindings m
      outcome).wp World.env w fun _ w' => Intact w₀ bindings w' := by
  rw [offboardRooms]
  split
  · exact Prog.wp_seq (kickFromAllMappedRooms_intact h) fun _ _ h => h
  · split
    · exact h
    · exact h

/-- An offboarding, whatever fails, takes nobody out of a room that is no target. -/
theorem offboardUser_intact {synapse : Bool} {homeserverDomain : String} :
    (offboardUser keycloakId adminSubject adminUsername homeserverDomain synapse
      bindings).wp World.env w fun _ w' => Intact w bindings w' := by
  refine Prog.wp_then (R := fun _ w' => Intact w bindings w') ?_ (fun _ _ h => h) ?_
  · exact ⟨trivial, fun x w₁ hs => step_intact ⟨rfl, fun _ _ h => h, fun _ _ _ h => h⟩ hs
      trivial⟩
  intro u w₁ h₁
  refine Prog.wp_seq (intact_of_only (revokeAuthSessions_only (fun _ => trivial)
    (fun _ => trivial) (fun _ _ => trivial) fun _ _ _ => trivial) h₁) fun o₂ w₂ h₂ => ?_
  refine Prog.wp_seq (intact_of_only ⟨trivial, fun _ => ⟨trivial, fun _ => trivial⟩⟩ h₂)
    fun o₃ w₃ h₃ => ?_
  refine Prog.wp_then (intact_of_only (fatalStep_only ⟨trivial, fun _ => trivial⟩
    fun _ _ _ => trivial) h₃) (fun _ _ h => h) fun _ w₄ h₄ => ?_
  refine Prog.wp_seq (offboardRooms_intact h₄) fun o₅ w₅ h₅ => ⟨trivial, fun x w₆ hs => ?_⟩
  have h₆ := step_intact h₅ hs trivial
  cases x with
  | error e => exact h₆
  | ok found =>
      cases found with
      | none => exact h₆
      | some a =>
          exact Prog.wp_then (intact_of_only (fatalStep_only ⟨trivial, fun _ => trivial⟩
            fun _ _ _ => trivial) h₆) (fun _ _ h => h) fun _ _ h => h

/-- Who is out of the targets is in the rooms of before that are none. -/
theorem Intact.left_iff (h : Intact w₀ bindings w) (hout : w.OutOf bindings m)
    (r : String) : m ∈ w.members r ↔
      m ∈ w₀.members r ∧ ∀ b ∈ bindings, r ∉ w₀.targets b := by
  have htargets : w.targets = w₀.targets := World.targets_congr h.children
  constructor
  · intro hm
    exact ⟨h.joined r m hm, fun b hb hr => hout b hb r (htargets ▸ hr) hm⟩
  · exact fun hm => h.member r hm.2 m hm.1

/-! ## Rooms nobody touches -/

theorem step_still {c : Call} {x : Answer c} (hs : World.env.step w c x w')
    (hc : c.mutates = none) : w'.members = w.members := by
  cases World.step_change hs with
  | none => rfl
  | logout j => rfl
  | disable j => rfl
  | enable j => rfl
  | erase j => rfl
  | finish i t => rfl
  | deactivate j => rfl
  | reactivate j => rfl
  | join u r => cases hc
  | kick u r why => cases hc
  | power r u level => rfl
  | record entry => rfl

theorem path_still {t : List Exchange} : ∀ {w : World}, World.env.Path w t w' →
    (∀ c ∈ calls t, c.mutates = none) → w'.members = w.members := by
  induction t with
  | nil =>
      intro w hp _
      cases hp
      rfl
  | cons e t ih =>
      intro w hp hc
      obtain ⟨w₁, hs, hp⟩ := hp
      obtain ⟨he, hc⟩ := List.forall_mem_cons.1 hc
      rw [ih hp hc, step_still hs he]

section

variable {state : AppState} {admin : Admin} {csrf location : String} {t : List Exchange}

theorem reactivate_still (hr : (reactivate state admin keycloakId csrf).Runs t
    (.ok location)) (hp : World.env.Path w t w') : w'.members = w.members := by
  obtain ⟨o, hrun, -⟩ := runs_redirect (checked_runs hr)
  have hfollows : AccountWorkflow.reactivate.Follows (fun _ c => c.mutates = none)
      keycloakId (reactivateUser keycloakId admin.subject admin.username
        state.homeserverDomain) :=
    AccountWorkflow.reactivateUser_only fun _ => ⟨fun _ => rfl, rfl, rfl, rfl, rfl,
      fun _ => rfl, fun _ => rfl, fun hkicks => False.elim hkicks, fun _ _ _ => rfl⟩
  obtain ⟨f, hf, honly⟩ := hfollows
  rw [hf] at hrun
  have hall : Prog.Only (fun c : Call => c.mutates = none)
      ((Keycloak.getUser keycloakId).andThen f) :=
    Prog.Only.andThen ⟨rfl, fun _ => trivial⟩ honly
  exact path_still hp (hall.reaches hrun)

theorem offboard_intact (hr : (offboard state admin keycloakId csrf).Runs t
    (.ok location)) (hp : World.env.Path w t w') : Intact w w.listed w' := by
  obtain ⟨t', o, hrun, hpath, -⟩ := offboard_ran hr hp
  exact Prog.wp_reaches offboardUser_intact hrun hpath

/-- A reconciliation without a warning touches the user's own memberships only. -/
theorem reconcile_same (hr : (reconcile state admin keycloakId csrf).Runs t
    (.ok location)) (hp : World.env.Path w t w')
    (hplain : location = UserAction.plain keycloakId .reconcile) :
    ∃ u : KeycloakUser, SameBut (matrixId u.username state.homeserverDomain) w w' := by
  obtain ⟨u, t', o, -, hpath, hblock, hclean⟩ := reconcile_ran hr hp
  obtain ⟨-, hview⟩ := reconcileMembership_view keycloakId
    (matrixId u.username state.homeserverDomain) (w.groupNames keycloakId)
    (w.roleNames keycloakId) admin.subject admin.username w.listed w
  rw [reconcileMembership_fine hblock hpath (hclean hplain)] at hview
  exact ⟨u, hview.same⟩

end

/-! ## The way back -/

/-- Somebody who was offboarded, reactivated and reconciled, each time without a
warning, can log in again and is in the rooms that are granted and in those of
before that the policy does not speak of; their old sessions and logins are over. -/
theorem there_and_back (state : AppState) (keycloakId : String)
    (off on back : Admin) (csrf₁ csrf₂ csrf₃ : String) (t₁ t₂ t₃ : List Exchange)
    (out₁ out₂ out₃ : String) (w₀ w₁ w₂ w₃ : World)
    (hr₁ : (offboard state off keycloakId csrf₁).Runs t₁ (.ok out₁))
    (hr₂ : (reactivate state on keycloakId csrf₂).Runs t₂ (.ok out₂))
    (hr₃ : (reconcile state back keycloakId csrf₃).Runs t₃ (.ok out₃))
    (hp₁ : World.env.Path w₀ t₁ w₁) (hp₂ : World.env.Path w₁ t₂ w₂)
    (hp₃ : World.env.Path w₂ t₃ w₃)
    (hplain₁ : out₁ = UserAction.plain keycloakId .offboard)
    (hplain₂ : out₂ = UserAction.plain keycloakId .reactivate)
    (hplain₃ : out₃ = UserAction.plain keycloakId .reconcile)
    (hconsistent : w₀.Consistent (w₀.groupNames keycloakId) (w₀.roleNames keycloakId)
      w₀.listed) :
    ∃ u, w₀.realm.byId keycloakId = some u ∧
      w₃.Enabled keycloakId ∧ w₃.MasOpen u.username ∧
      w₃.LoggedOut keycloakId ∧ w₃.SessionFree u.username ∧
      ∀ r, matrixId u.username state.homeserverDomain ∈ w₃.members r ↔
        w₀.Granted (w₀.groupNames keycloakId) (w₀.roleNames keycloakId) w₀.listed r ∨
        (matrixId u.username state.homeserverDomain ∈ w₀.members r ∧
          ∀ b ∈ w₀.listed, r ∉ w₀.targets b) := by
  obtain ⟨u, hu, -, hfree, hout, houtof, -⟩ := offboard_keeps hr₁ hp₁ hplain₁
  have hintact := offboard_intact hr₁ hp₁
  obtain ⟨u₁, hu₁, henabled, hopen⟩ := reactivate_keeps hr₂ hp₂ hplain₂
  obtain ⟨u₂, hu₂, henforced⟩ := reconcile_keeps hr₃ hp₃ hplain₃
  obtain ⟨v, hsame⟩ := reconcile_same hr₃ hp₃ hplain₃
  have hid : u.id = keycloakId := (Directory.byId_some.1 hu).2
  have hid₁ : u₁.id = keycloakId := (Directory.byId_some.1 hu₁).2
  have hsteady : Steady w₀ w₂ := (path_steady hp₁).trans (path_steady hp₂)
  have hname₁ : u₁.username = u.username :=
    (path_steady hp₁).same_username hu₁ hu
  have hname₂ : u₂.username = u.username := hsteady.same_username hu₂ hu
  rw [hid₁] at henabled
  rw [hname₁] at hopen
  have hlater : World.env.Path w₁ (t₂ ++ t₃) w₃ := hp₂.append hp₃
  obtain ⟨hended, hstill⟩ := path_ended hlater
  refine ⟨u, hu, ?_, ?_, hstill _ (hid ▸ hout), hended.sessionFree (path_unmoved hlater)
    hfree, fun r => ?_⟩
  · obtain ⟨v', hv', he⟩ := henabled
    exact ⟨v', by rw [hsame.realm]; exact hv', he⟩
  · intro a ha
    rw [hsame.accounts] at ha
    exact hopen a ha
  · have hgroups : w₂.groupNames keycloakId = w₀.groupNames keycloakId := by
      rw [World.groupNames, World.groupNames, hsteady.groups]
    have hroles : w₂.roleNames keycloakId = w₀.roleNames keycloakId := by
      rw [World.roleNames, World.roleNames, hsteady.roles]
    rw [hgroups, hroles, hsteady.listed, hname₂] at henforced
    have hgranted : ∀ r, w₂.Granted (w₀.groupNames keycloakId) (w₀.roleNames keycloakId)
        w₀.listed r ↔ w₀.Granted (w₀.groupNames keycloakId) (w₀.roleNames keycloakId)
        w₀.listed r := fun r => granted_congr hsteady.children (.refl _)
    have hbarred : ∀ r, w₂.Barred (w₀.groupNames keycloakId) (w₀.roleNames keycloakId)
        w₀.listed r ↔ w₀.Barred (w₀.groupNames keycloakId) (w₀.roleNames keycloakId)
        w₀.listed r := fun r => barred_congr hsteady.children (.refl _)
    have hmember := henforced
      (fun r hg hb => hconsistent r ((hgranted r).1 hg) ((hbarred r).1 hb)) r
    rw [hgranted, hbarred, reactivate_still hr₂ hp₂] at hmember
    have hleft := hintact.left_iff houtof r
    rw [hmember, hleft]
    constructor
    · intro h
      exact h.2
    · intro h
      refine ⟨fun hb => ?_, h⟩
      rcases h with hg | ⟨-, hfar⟩
      · exact hconsistent r hg hb
      · obtain ⟨b, hb, -, -, hr⟩ := hb
        exact hfar b hb hr

/-! Ada is staff, and staff belong in the lobby. -/

def adaEmployed : World := { World.empty with
  realm := .single ⟨"kc-1", "ada", true⟩
  accounts := .single ⟨"mas-1", "ada", none⟩
  roles := fun _ => [⟨"r-1", "staff"⟩]
  members := fun _ => ["@ada:example.org"]
  bindings := [⟨"pb-1", .role "staff", .room "!lobby:example.org", none, true,
    "2026-03-09T00:00:00Z", "2026-03-09T00:00:00Z"⟩] }

def personnel : Admin := ⟨"sub", "root", "csrf"⟩

def adaGone : Outcome Call Answer World (Result String) :=
  (offboard ⟨"example.org", true⟩ personnel "kc-1" "csrf").exec World.serve adaEmployed

def adaHired : Outcome Call Answer World (Result String) :=
  (reactivate ⟨"example.org", true⟩ personnel "kc-1" "csrf").exec World.serve adaGone.state

def adaBack : Outcome Call Answer World (Result String) :=
  (reconcile ⟨"example.org", true⟩ personnel "kc-1" "csrf").exec World.serve adaHired.state

theorem ada_is_back :
    "@ada:example.org" ∈ adaBack.state.members "!lobby:example.org" ∧
    "@ada:example.org" ∈ adaBack.state.members "!friends:example.org" := by
  have hbinding : ∀ b ∈ adaEmployed.listed, b.target.roomId = "!lobby:example.org" ∧
      userMatchesBinding b (adaEmployed.groupNames "kc-1") (adaEmployed.roleNames "kc-1") =
        true := by
    intro b hb
    obtain rfl := List.mem_singleton.1 hb
    exact ⟨rfl, rfl⟩
  obtain ⟨u, hu, -, -, -, -, hmember⟩ := there_and_back ⟨"example.org", true⟩ "kc-1"
    personnel personnel personnel "csrf" "csrf" "csrf"
    adaGone.trace adaHired.trace adaBack.trace _ _ _
    adaEmployed adaGone.state adaHired.state adaBack.state
    Prog.exec_runs Prog.exec_runs Prog.exec_runs
    (Prog.exec_path World.step_serve) (Prog.exec_path World.step_serve)
    (Prog.exec_path World.step_serve) rfl rfl rfl (fun r _ hbarred => by
      obtain ⟨b, hb, hm, -⟩ := hbarred
      rw [(hbinding b hb).2] at hm
      cases hm)
  cases hu
  refine ⟨(hmember _).2 (.inl ⟨_, List.mem_cons_self, rfl, List.mem_cons_self⟩),
    (hmember _).2 (.inr ⟨List.mem_cons_self, fun b hb hin => ?_⟩)⟩
  obtain rfl := List.mem_singleton.1 hb
  exact absurd (List.mem_singleton.1 hin) (by decide)

end MatrixIdentityAdmin.Ref
