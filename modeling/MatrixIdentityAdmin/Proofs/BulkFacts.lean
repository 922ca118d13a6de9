import MatrixIdentityAdmin.Proofs.BulkSteps
import MatrixIdentityAdmin.Proofs.LostRoles
import MatrixIdentityAdmin.Proofs.Steady

/-!
# Bulk reconciliation and failing reads

The user loop takes one record after another, and what it does for one of them
depends on the two reads of that record and on the world alone. A groups read
that fails costs the record its turn. A roles read that fails is taken for an
empty list, and `lost_roles_iff` says when that shows. Everything else in a
bulk request only looks, so the whole request is faithful exactly when every
record whose roles were lost could do without them.

The bookkeeping is an invariant over the world and the log of the calls so
far, `Even`: up to here the one side holds if and only if the other does.
-/

namespace MatrixIdentityAdmin.Ref

open MatrixIdentityAdmin.Lib

/-- The reads of a record's groups and roles change nothing. -/
theorem serve_facts {w : World} {c : Call} (hc : c.readsFacts = true) :
    (w.serve c).2 = w := by
  have hchange : w.Change c (w.serve c).2 := World.serve_change w c
  generalize (w.serve c).2 = w' at hchange ⊢
  cases hchange with
  | none => rfl
  | logout id => cases hc
  | disable id => cases hc
  | enable id => cases hc
  | erase id => cases hc
  | finish i t => cases hc
  | deactivate id => cases hc
  | reactivate id => cases hc
  | join u r => cases hc
  | kick u r why => cases hc
  | power r u level => cases hc
  | record entry => cases hc

/-! ## Reading a log in pieces -/

namespace BulkReading

variable {state : AppState} {admin : Admin}

theorem faithful_append {t t' : List Exchange} : ∀ {rd : BulkReading},
    rd.Faithful state admin (t ++ t') ↔ rd.Faithful state admin t ∧
      (t.foldl step rd).Faithful state admin t' := by
  induction t with
  | nil =>
      intro rd
      exact ⟨fun h => ⟨trivial, h⟩, fun h => h.2⟩
  | cons e t ih =>
      intro rd
      rw [List.cons_append, Faithful, Faithful, ih, and_assoc]
      rfl

theorem nobodyMisled_append {t t' : List Exchange} : ∀ {rd : BulkReading},
    rd.NobodyMisled state (t ++ t') ↔ rd.NobodyMisled state t ∧
      (t.foldl step rd).NobodyMisled state t' := by
  induction t with
  | nil =>
      intro rd
      exact ⟨fun h => ⟨trivial, h⟩, fun h => h.2⟩
  | cons e t ih =>
      intro rd
      rw [List.cons_append, NobodyMisled, NobodyMisled, ih, and_assoc]
      rfl

theorem world_foldl {t : List Exchange} : ∀ {rd : BulkReading},
    (t.foldl step rd).world = after World.serve rd.world t := by
  induction t with
  | nil => intro rd; rfl
  | cons e t ih => intro rd; exact ih

/-- While no facts are read the record in hand stays the same. -/
theorem step_current {rd : BulkReading} {e : Exchange}
    (h : e.call.readsFacts = false) : (rd.step e).current = rd.current := by
  obtain ⟨c, x⟩ := e
  cases c with
  | keycloak c =>
      cases c with
      | getUserGroups id => cases h
      | getUserRoles id => rfl
      | searchUsers q n f => rfl
      | countUsers q => rfl
      | getUser id => rfl
      | logoutUser id => rfl
      | deleteUser id => rfl
      | disableUser id => rfl
      | enableUser id => rfl
  | mas c => rfl
  | synapse c => rfl
  | audit entry => rfl
  | policy c => rfl

/-- A stretch without such reads is judged by the record in hand. -/
theorem faithful_within {id : String} {w : World} {t : List Exchange}
    (ht : ∀ c ∈ calls t, c.readsFacts = false) : ∀ {rd : BulkReading},
    rd.current = some (id, w) →
      (rd.Faithful state admin t ↔ ∀ c ∈ calls t, c.mutates ≠ none →
        c ∈ w.wouldCall state admin id) := by
  induction t with
  | nil =>
      intro rd _
      exact ⟨fun _ _ hc => absurd hc List.not_mem_nil, fun _ => trivial⟩
  | cons e t ih =>
      intro rd hrd
      have he : e.call.readsFacts = false := ht e.call (by simp)
      have hstep : (rd.step e).current = some (id, w) := by
        rw [step_current he, hrd]
      have htail := ih (fun c hc => ht c (List.mem_cons_of_mem _ hc)) hstep
      rw [Faithful, htail, calls_cons, List.forall_mem_cons]
      refine and_congr_left' (imp_congr_right fun _ => ?_)
      constructor
      · intro h
        obtain ⟨id', w', hcur, hc⟩ := h
        rw [hrd] at hcur
        cases hcur
        exact hc
      · intro hc
        exact ⟨id, w, hrd, hc⟩

theorem nobodyMisled_within {t : List Exchange}
    (ht : ∀ c ∈ calls t, c.readsFacts = false) : ∀ {rd : BulkReading},
    rd.NobodyMisled state t := by
  induction t with
  | nil => intro rd; trivial
  | cons e t ih =>
      intro rd
      refine ⟨?_, ih fun c hc => ht c (List.mem_cons_of_mem _ hc)⟩
      intro id err he
      have hread := ht e.call (by simp)
      rw [he] at hread
      cases hread

/-- The turn of a record: its two reads, and a stretch without such reads. -/
abbrev turn (id : String) (x : Result (List KeycloakGroup))
    (y : Result (List KeycloakRole)) (t : List Exchange) : List Exchange :=
  ⟨.keycloak (.getUserGroups id), x⟩ :: ⟨.keycloak (.getUserRoles id), y⟩ :: t

theorem faithful_turn {rd : BulkReading} {id : String}
    {x : Result (List KeycloakGroup)} {y : Result (List KeycloakRole)}
    {t : List Exchange} (ht : ∀ c ∈ calls t, c.readsFacts = false) :
    rd.Faithful state admin (turn id x y t) ↔
      ∀ c ∈ calls t, c.mutates ≠ none →
        c ∈ rd.world.wouldCall state admin id := by
  rw [Faithful, Faithful, faithful_within ht rfl]
  constructor
  · intro h
    exact h.2.2
  · intro h
    exact ⟨fun hm => absurd rfl hm, fun hm => absurd rfl hm, h⟩

theorem nobodyMisled_turn {rd : BulkReading} {id : String}
    {x : Result (List KeycloakGroup)} {y : Result (List KeycloakRole)}
    {t : List Exchange} (ht : ∀ c ∈ calls t, c.readsFacts = false) :
    rd.NobodyMisled state (turn id x y t) ↔
      ∀ err, y = .error err → ¬ rd.world.MisledRecord state id := by
  have hworld : (rd.step ⟨.keycloak (.getUserGroups id), x⟩).world = rd.world :=
    serve_facts rfl
  rw [NobodyMisled, NobodyMisled, hworld]
  constructor
  · intro h err hy
    exact h.2.1 id err (by rw [hy])
  · intro h
    refine ⟨fun _ _ he => (by cases he), ?_, nobodyMisled_within ht⟩
    intro id' err he
    cases he
    exact h err rfl

end BulkReading

/-! ## The invariant -/

/-- The world is where the log says, with the facts of the world at the start,
and so far the log is faithful exactly when nobody was misled. -/
structure Even (state : AppState) (admin : Admin) (w₀ : World)
    (s : World × List Exchange) : Prop where
  realm : s.1.realm = w₀.realm
  steady : Steady w₀ s.1
  world : after World.serve w₀ s.2 = s.1
  level : (BulkReading.start w₀).Faithful state admin s.2 ↔
    (BulkReading.start w₀).NobodyMisled state s.2

theorem readsFail_env {w w' : World} {c : Call} {x : Answer c}
    (h : World.readsFail.step w c x w') : World.env.step w c x w' := by
  rcases h with h | ⟨-, ⟨e, rfl⟩, rfl⟩
  · exact ⟨.none, trivial, h⟩
  · exact ⟨.fails e false, trivial, rfl⟩

/-- A read that fails leaves the world where a read that works leaves it. -/
theorem readsFail_state {w w' : World} {c : Call} {x : Answer c}
    (h : World.readsFail.step w c x w') : w' = (w.serve c).2 := by
  rcases h with h | ⟨hreads, -, rfl⟩
  · rw [h]
  · exact (serve_facts hreads).symm

section

variable {state : AppState} {admin : Admin} {w₀ : World}

/-- A call that only looks, and does not lose anybody's roles, tips neither
side. -/
theorem even_look {w w' : World} {t : List Exchange} {c : Call} {x : Answer c}
    (h : Even state admin w₀ (w, t)) (hstep : World.readsFail.step w c x w')
    (hc : c.reconciling) (hlook : c.mutates = none)
    (hroles : ∀ id err, (⟨c, x⟩ : Exchange) ≠
      ⟨.keycloak (.getUserRoles id), .error err⟩) :
    Even state admin w₀ (w', t ++ [⟨c, x⟩]) where
  realm := (step_realm (readsFail_env hstep) hc).trans h.realm
  steady := h.steady.trans (step_steady (readsFail_env hstep))
  world := by
    rw [after_append, h.world]
    exact (readsFail_state hstep).symm
  level := by
    rw [BulkReading.faithful_append, BulkReading.nobodyMisled_append, h.level]
    refine and_congr_right' ⟨fun _ => ⟨?_, trivial⟩, fun _ => ⟨?_, trivial⟩⟩
    · intro id err he
      exact absurd he (hroles id err)
    · intro hm
      exact absurd hlook hm

/-- One record, reconciled with the role names the request made of the answer
`y`: faithful exactly when the roles were read or could be done without. -/
theorem record_faithful_iff {w : World} {v : KeycloakUser}
    {y : Result (List KeycloakRole)} {roleNames : List String}
    (hv : w.realm.byId v.id = some v)
    (hnames : (y = .ok (w.roles v.id) ∧
        roleNames = (w.roles v.id).map (·.name)) ∨
      (∃ err, y = .error err) ∧ roleNames = []) :
    (∀ c ∈ calls ((reconcileMembership v.id
        (matrixId v.username state.homeserverDomain)
        ((w.groups v.id).map (·.name)) roleNames admin.subject admin.username
        w.listed).exec World.serve w).trace, c.mutates ≠ none →
          c ∈ w.wouldCall state admin v.id) ↔
      ∀ err, y = .error err → ¬ w.MisledRecord state v.id := by
  rw [World.wouldCall, hv]
  rcases hnames with ⟨rfl, rfl⟩ | ⟨⟨err, rfl⟩, rfl⟩
  · exact ⟨fun _ err hy => (by cases hy), fun _ c hc _ => hc⟩
  · have hrecord : w.MisledRecord state v.id ↔
        w.Misled (matrixId v.username state.homeserverDomain)
          ((w.groups v.id).map (·.name)) ((w.roles v.id).map (·.name)) := by
      constructor
      · intro h
        obtain ⟨u, hu, hmisled⟩ := h
        rw [hv, Option.some.injEq] at hu
        rw [← hu] at hmisled
        exact hmisled
      · exact fun hmisled => ⟨v, hv, hmisled⟩
    have hlost := lost_roles_iff v.id
      (matrixId v.username state.homeserverDomain)
      ((w.groups v.id).map (·.name)) ((w.roles v.id).map (·.name))
      admin.subject admin.username w
    rw [← hrecord] at hlost
    exact ⟨fun h _ _ => hlost.1 h, fun h => hlost.2 (h err rfl)⟩

theorem steady_of_same {m : String} {w w' : World} (h : SameBut m w w') :
    Steady w w' where
  groups := h.groups
  roles := h.roles
  profiles := h.profiles
  children := h.children
  bindings := h.bindings
  names _ u hu := ⟨u, h.realm ▸ hu, rfl⟩

/-- The whole turn of a record whose groups were read. -/
theorem even_record {w : World} {t : List Exchange} {v : KeycloakUser}
    {y : Result (List KeycloakRole)} {roleNames : List String}
    (h : Even state admin w₀ (w, t)) (hv : v ∈ w₀.realm.rows)
    (hnames : (y = .ok (w.roles v.id) ∧
        roleNames = (w.roles v.id).map (·.name)) ∨
      (∃ err, y = .error err) ∧ roleNames = []) :
    let run := (reconcileMembership v.id
      (matrixId v.username state.homeserverDomain)
      ((w.groups v.id).map (·.name)) roleNames admin.subject admin.username
      w₀.listed).exec World.serve w
    Even state admin w₀ (run.state,
      t ++ [⟨.keycloak (.getUserGroups v.id), .ok (w.groups v.id)⟩] ++
        [⟨.keycloak (.getUserRoles v.id), y⟩] ++ run.trace) := by
  intro run
  have hrow : w.realm.byId v.id = some v := by
    rw [h.realm]
    exact Directory.byId_some.2 ⟨hv, rfl⟩
  have hsame : SameBut (matrixId v.username state.homeserverDomain) w run.state :=
    (reconcileMembership_view _ _ _ _ _ _ _ _).2.same
  have hquiet : ∀ c ∈ calls run.trace, c.readsFacts = false :=
    (reconcileMembership_only (fun _ => rfl) fun _ _ _ _ => rfl).exec
  have hgroups : (w.serve (.keycloak (.getUserGroups v.id))).2 = w :=
    serve_facts rfl
  have hroles : (w.serve (.keycloak (.getUserRoles v.id))).2 = w :=
    serve_facts rfl
  refine ⟨hsame.realm.trans h.realm, h.steady.trans (steady_of_same hsame), ?_,
    ?_⟩
  · rw [after_append, after_append, after_append, h.world]
    show after World.serve (World.serve (w.serve _).2 _).2 run.trace = run.state
    rw [hgroups, hroles]
    exact Prog.exec_state.symm
  · have hworld : (t.foldl BulkReading.step (.start w₀)).world = w := by
      rw [BulkReading.world_foldl]
      exact h.world
    have hiff := @record_faithful_iff state admin w v y roleNames hrow hnames
    rw [h.steady.listed] at hiff
    rw [List.append_assoc, List.append_assoc, BulkReading.faithful_append,
      BulkReading.nobodyMisled_append, h.level]
    refine and_congr_right' ?_
    refine (BulkReading.faithful_turn hquiet).trans ?_
    refine Iff.trans ?_ (BulkReading.nobodyMisled_turn hquiet).symm
    rw [hworld]
    exact hiff

/-! ## The request -/

/-- The rest of a record's turn, once its roles came back or did not. -/
theorem reconcile_even {w : World} {t : List Exchange} {v : KeycloakUser}
    {y : Result (List KeycloakRole)} {roleNames : List String}
    {α : Type} {f : Result WorkflowOutcome → α}
    (h : Even state admin w₀ (w, t)) (hv : v ∈ w₀.realm.rows)
    (hnames : (y = .ok (w.roles v.id) ∧
        roleNames = (w.roles v.id).map (·.name)) ∨
      (∃ err, y = .error err) ∧ roleNames = []) :
    (reconcileMembership v.id (matrixId v.username state.homeserverDomain)
      ((w.groups v.id).map (·.name)) roleNames admin.subject admin.username
      w₀.listed >>= fun o => Prog.ret (f o)).wp World.readsFail.logged
      (w, t ++ [⟨.keycloak (.getUserGroups v.id), .ok (w.groups v.id)⟩] ++
        [⟨.keycloak (.getUserRoles v.id), y⟩])
      fun _ s' => Even state admin w₀ s' := by
  refine Prog.wp_seq (R := fun _ s' => Even state admin w₀ s') ?_ fun _ _ h => h
  refine Prog.wp_exec_logged (P := fun c => c.readsFacts = false)
    (reconcileMembership_only (fun _ => rfl) fun _ _ _ _ => rfl)
    (fun _ _ _ => trivial) ?_ (even_record h hv hnames)
  intro s c x s' hc hs
  rcases hs with hs | ⟨hreads, -⟩
  · exact hs
  · rw [hc] at hreads
    cases hreads

theorem bulkReconcileUser_even {acc : BulkReconcileResult} {v : KeycloakUser}
    {s : World × List Exchange} (h : Even state admin w₀ s)
    (hv : v ∈ w₀.realm.rows) :
    (bulkReconcileUser state admin w₀.listed acc v).wp World.readsFail.logged s
      fun _ s' => Even state admin w₀ s' := by
  obtain ⟨w, t⟩ := s
  rw [bulkReconcileUser]
  cases v.enabled with
  | false => exact h
  | true =>
      refine ⟨trivial, fun x s₁ hx => ?_⟩
      obtain ⟨w₁, t₁⟩ := s₁
      obtain ⟨hx, rfl⟩ := hx
      cases x with
      | error err => exact even_look h hx trivial rfl fun _ _ he => by cases he
      | ok gs =>
          have hgs : gs = w.groups v.id := World.step_getUserGroups (readsFail_env hx)
          obtain rfl : w = w₁ :=
            ((readsFail_state hx).trans (serve_facts rfl)).symm
          refine ⟨trivial, fun y s₂ hy => ?_⟩
          obtain ⟨w₂, t₂⟩ := s₂
          obtain ⟨hy, rfl⟩ := hy
          obtain rfl : w = w₂ :=
            ((readsFail_state hy).trans (serve_facts rfl)).symm
          rw [hgs]
          cases y with
          | ok rs =>
              obtain rfl : rs = w.roles v.id := World.step_getUserRoles (readsFail_env hy)
              exact reconcile_even h hv (.inl ⟨rfl, rfl⟩)
          | error err => exact reconcile_even h hv (.inr ⟨⟨err, rfl⟩, rfl⟩)

theorem bulkReconcilePages_even {fuel : Nat} {first : UInt32}
    {acc : BulkReconcileResult} {s : World × List Exchange}
    (h : Even state admin w₀ s) :
    (bulkReconcilePages state admin w₀.listed fuel first acc).wp
      World.readsFail.logged s fun _ s' => Even state admin w₀ s' := by
  refine wp_bulkReconcilePages (fun first s h => ⟨trivial, fun x s₁ hx => ?_⟩) h
  obtain ⟨w, t⟩ := s
  obtain ⟨w₁, t₁⟩ := s₁
  obtain ⟨hx, rfl⟩ := hx
  have h₁ : Even state admin w₀ (w₁, t ++ [⟨.keycloak
      (.searchUsers "" pageSize first), x⟩]) :=
    even_look h hx trivial rfl fun _ _ he => by cases he
  cases x with
  | error err => exact h₁
  | ok page =>
      intro acc
      have hrows : ∀ v ∈ page, v ∈ w₀.realm.rows :=
        h.realm ▸ World.step_searchUsers (readsFail_env hx)
      refine Prog.wp_foldlM (fun _ _ s' => Even state admin w₀ s') ?_ h₁
      intro pre v post hl acc s' h'
      exact bulkReconcileUser_even h' (hrows v (by simp [hl]))

theorem even_start (w : World) : Even state admin w (w, []) where
  realm := rfl
  steady := Steady.refl w
  world := rfl
  level := Iff.rfl

theorem bulkReconcile_even {fuel : Nat} {csrf : String} {w : World} :
    (bulkReconcile state admin fuel csrf).wp World.readsFail.logged (w, [])
      fun _ s' => Even state admin w s' := by
  have h : Even state admin w (w, []) := even_start w
  refine wp_bulkReconcile h ⟨trivial, fun x s₁ hx => ?_⟩ fun _ _ s hs =>
    ⟨trivial, fun x s₁ hx => ?_⟩
  · obtain ⟨w₁, t₁⟩ := s₁
    obtain ⟨hx, rfl⟩ := hx
    exact even_look h hx trivial rfl fun _ _ he => by cases he
  · obtain ⟨w₁, t₁⟩ := s
    obtain ⟨w₂, t₂⟩ := s₁
    obtain ⟨hx, rfl⟩ := hx
    have h₂ := even_look hs hx trivial rfl fun _ _ he => by cases he
    cases x with
    | error err => exact h₂
    | ok bindings =>
        obtain rfl : bindings = w.listed :=
          (World.step_listBindings (readsFail_env hx)).trans hs.steady.listed
        exact bulkReconcilePages_even h₂

end

/-- On a day when only reads of groups and roles fail, a bulk request makes
only calls that the actual groups and roles of the record in hand call for,
exactly when no roles are lost of a record that is misled without them. -/
theorem bulk_faithful_iff {state : AppState} {admin : Admin} {fuel : Nat}
    {csrf : String} {w w' : World} {t : List Exchange}
    {a : Option (Result BulkReconcileResult)}
    (hrun : (bulkReconcile state admin fuel csrf).Runs t a)
    (hpath : World.readsFail.Path w t w') :
    (BulkReading.start w).Faithful state admin t ↔
      (BulkReading.start w).NobodyMisled state t :=
  (Prog.wp_logged_runs bulkReconcile_even hrun hpath).level

/-! ## The roles of Ada are lost -/

section

/-- Ada is staff by role, staff belong in the office and nobody else does. -/
def adaInOffice : World :=
  { World.empty with
    realm := .single ⟨"kc-1", "ada", true⟩
    roles := fun _ => [⟨"r-1", "staff"⟩]
    members := fun r =>
      if r = "!office:example.org" then ["@ada:example.org"] else []
    bindings := [⟨"pb-1", .role "staff", .room "!office:example.org", none,
      true, "2026-03-09T00:00:00Z", "2026-03-09T00:00:00Z"⟩] }

/-- Keycloak does not get round to roles today. -/
def rolesDown (w : World) : (c : Call) → Answer c × World
  | .keycloak (.getUserRoles _) =>
      (.error (.upstream "keycloak" "timed out"), w)
  | c => w.serve c

theorem rolesDown_readsFail (w : World) (c : Call) :
    World.readsFail.step w c (rolesDown w c).1 (rolesDown w c).2 := by
  cases c with
  | keycloak c =>
      cases c with
      | getUserRoles id => exact .inr ⟨rfl, ⟨_, rfl⟩, rfl⟩
      | getUserGroups id => exact .inl rfl
      | searchUsers q n f => exact .inl rfl
      | countUsers q => exact .inl rfl
      | getUser id => exact .inl rfl
      | logoutUser id => exact .inl rfl
      | deleteUser id => exact .inl rfl
      | disableUser id => exact .inl rfl
      | enableUser id => exact .inl rfl
  | mas c => exact .inl rfl
  | synapse c => exact .inl rfl
  | audit entry => exact .inl rfl
  | policy c => exact .inl rfl

def officeState : AppState := ⟨"example.org", true⟩

def officeAdmin : Admin := ⟨"sub", "root", "token"⟩

/-- The bulk request of that day. -/
def officeRun : Outcome Call Answer World (Option (Result BulkReconcileResult)) :=
  (bulkReconcile officeState officeAdmin 2 "token").exec rolesDown adaInOffice

theorem officeRun_kick : ¬ (BulkReading.start adaInOffice).Faithful officeState
    officeAdmin officeRun.trace := by
  intro h
  -- The eighth call is the kick; with her role she would have stayed.
  obtain ⟨-, -, -, -, -, -, -, hkick, -⟩ := h
  obtain ⟨id, w, hcurrent, hcall⟩ := hkick (Option.some_ne_none _)
  have hnone : Call.synapse (.kickUserFromRoom "@ada:example.org"
      "!office:example.org" "Removed: no longer matches role:staff") ∉
      adaInOffice.wouldCall officeState officeAdmin "kc-1" := by decide
  cases hcurrent
  exact hnone hcall

/-- Her roles cannot be read, and she is removed from the office for not
having one she has. -/
theorem kicked_for_a_role_held :
    ∃ t a w', (bulkReconcile officeState officeAdmin 2 "token").Runs t a ∧
      World.readsFail.Path adaInOffice t w' ∧
      Call.synapse (.kickUserFromRoom "@ada:example.org" "!office:example.org"
        "Removed: no longer matches role:staff") ∈ calls t ∧
      ¬ (BulkReading.start adaInOffice).Faithful officeState officeAdmin t := by
  refine ⟨officeRun.trace, _, _, Prog.exec_runs,
    Prog.exec_path rolesDown_readsFail, ?_, officeRun_kick⟩
  decide

/-- She is misled. -/
theorem ada_misled : ¬ (BulkReading.start adaInOffice).NobodyMisled officeState
    officeRun.trace :=
  fun h => officeRun_kick ((bulk_faithful_iff Prog.exec_runs
    (Prog.exec_path rolesDown_readsFail)).2 h)

end

end MatrixIdentityAdmin.Ref
