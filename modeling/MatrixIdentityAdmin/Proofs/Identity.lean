import MatrixIdentityAdmin.Proofs.AccountSteps
import MatrixIdentityAdmin.Proofs.BulkSteps
import MatrixIdentityAdmin.Proofs.ReconcileSteps
import MatrixIdentityAdmin.Spec.Identity

/-!
# Which Matrix id the workflows act on

Every workflow puts the username of its record between an `@` and a colon, and
none asks whether that makes a Matrix id. So they agree with
`derive_matrix_id` on the usernames it accepts, and a username it rejects is
acted on by every workflow that can get as far as a room.

A run is watched by `InHand`. What follows the choice of a record is one block
of calls that do not change what is in hand, so the block is described once and
for all by the Matrix id it is about.
-/

namespace MatrixIdentityAdmin.Ref

open MatrixIdentityAdmin.Lib

variable {state : AppState} {admin : Admin} {moves : Prop}
  {homeserverDomain m : String} {rd : InHand}

/-! ## Blocks about one Matrix id -/

/-- The call does not take up another record. -/
def Call.keepsHand : Call → Prop
  | .keycloak (.getUser _) => False
  | .keycloak (.searchUsers ..) => False
  | .keycloak (.getUserGroups _) => False
  | _ => True

/-- The call is about this Matrix id if it is about any, and it changes
somebody's standing only if there is to be any change at all. -/
structure Call.About (moves : Prop) (m : String) (c : Call) : Prop where
  keeps : c.keepsHand
  names : ∀ u, c.names = some u → u = m
  mutates : c.mutates ≠ none → moves

theorem InHand.step_keeps {e : Exchange} (h : e.call.keepsHand) :
    rd.step e = rd := by
  obtain ⟨c, x⟩ := e
  cases c with
  | keycloak c =>
      cases c with
      | getUser id => exact False.elim h
      | searchUsers q n f => exact False.elim h
      | getUserGroups id => exact False.elim h
      | countUsers q => rfl
      | getUserRoles id => rfl
      | logoutUser id => rfl
      | deleteUser id => rfl
      | disableUser id => rfl
      | enableUser id => rfl
  | mas c => rfl
  | synapse c => rfl
  | audit entry => rfl
  | policy c => rfl

/-- The calls that name nobody and move nobody. -/
theorem Call.about_of_silent {c : Call} (hk : c.keepsHand) (hn : c.names = none)
    (hm : c.mutates = none) : c.About moves m where
  keeps := hk
  names u hu := by
    rw [hn] at hu
    cases hu
  mutates h := absurd hm h

/-- What is asked of a call while a username is in hand. -/
def IdentityWorkflow.idWatch (homeserverDomain : String) (moves : Prop) :
    Env Call Answer InHand :=
  .monitor (fun rd c => ∀ n, rd.username = some n →
    (∀ u, c.names = some u → u = matrixId n homeserverDomain) ∧
      (c.mutates ≠ none → moves)) InHand.step

open IdentityWorkflow

/-- A block about the id of the username in hand leaves that in hand. -/
theorem about_wp {α : Type} (moves : Prop) {p : Async α} {n : String}
    (hp : p.Only (Call.About moves (matrixId n homeserverDomain)))
    (hn : rd.username = some n) :
    p.wp (idWatch homeserverDomain moves) rd fun _ rd' => rd' = rd := by
  refine hp.wp (fun rd' => rd' = rd) ?_ ?_ rfl
  · intro rd' c hc hrd n' hn'
    rw [hrd, hn] at hn'
    cases hn'
    exact ⟨hc.names, hc.mutates⟩
  · intro rd' c x rd'' hc hrd hstep
    rw [show rd'' = rd'.step ⟨c, x⟩ from hstep, InHand.step_keeps hc.keeps]
    exact hrd

/-- A call that names nobody, and whatever comes after it. -/
theorem silent_wp {α : Type} {c : Call} {k : Answer c → Async α}
    {Q : α → InHand → Prop} (hn : c.names = none) (hm : c.mutates = none)
    (hk : ∀ x, (k x).wp (idWatch homeserverDomain moves) (rd.step ⟨c, x⟩) Q) :
    (Prog.call c k).wp (idWatch homeserverDomain moves) rd Q := by
  refine ⟨fun n _ => ⟨fun u hu => ?_, fun h => absurd hm h⟩, fun x rd' hstep => ?_⟩
  · rw [hn] at hu
    cases hu
  · rw [show rd' = rd.step ⟨c, x⟩ from hstep]
    exact hk x

/-! ## The calls of the blocks -/

section

variable {keycloakId actorSubject actorUsername : String}

theorem reconcileMembership_about {groups roles : List String}
    {bindings : List PolicyBinding} (hm : moves) :
    (reconcileMembership keycloakId m groups roles actorSubject actorUsername
      bindings).Only (Call.About moves m) := by
  refine Prog.Only.bind (Prog.Only.foldlM ?_ _) fun _ => trivial
  intro b _ o
  rw [reconcileBinding_call]
  refine ⟨Call.about_of_silent trivial rfl rfl, fun x => ?_⟩
  have hown : ∀ c : Call, c.keepsHand → (∀ u, c.names = some u → u = m) →
      c.About moves m := fun c hk hn => ⟨hk, hn, fun _ => hm⟩
  have hsome : ∀ u, some m = some u → u = m := fun u h => (Option.some.inj h).symm
  refine bindingRounds_cases (P := Prog.Only _) ?_ ?_ fun _ _ => trivial
  · intro _
    exact Prog.Only.foldlM (fun _ _ _ => joinTarget_only
      (Call.about_of_silent trivial rfl rfl) (hown _ trivial hsome)
      (fun _ => hown _ trivial hsome) fun _ _ => hown _ trivial hsome) _
  · intro _ _
    exact Prog.Only.foldlM (fun _ _ _ => kickTarget_only
      (Call.about_of_silent trivial rfl rfl) (hown _ trivial hsome)
      fun _ => hown _ trivial hsome) _

theorem previewMembership_about {groups roles : List String}
    {bindings : List PolicyBinding} :
    (previewMembership m bindings groups roles).Only (Call.About moves m) :=
  previewMembership_only (fun _ => Call.about_of_silent trivial rfl rfl)
    fun _ => Call.about_of_silent trivial rfl rfl

theorem AccountWorkflow.makes_about {wf : AccountWorkflow}
    (hm : wf.Kicks → moves) :
    wf.Makes (Call.About moves m) keycloakId m actorSubject actorUsername where
  mas _ := Call.about_of_silent trivial rfl rfl
  logout := Call.about_of_silent trivial rfl rfl
  disable := Call.about_of_silent trivial rfl rfl
  enable := Call.about_of_silent trivial rfl rfl
  delete := Call.about_of_silent trivial rfl rfl
  children _ := Call.about_of_silent trivial rfl rfl
  read _ := Call.about_of_silent trivial rfl rfl
  kick hk _ := ⟨trivial, fun _ h => (Option.some.inj h).symm, fun _ => hm hk⟩
  audit _ _ _ := ⟨trivial, fun _ h => (Option.some.inj h).symm, fun h => absurd rfl h⟩

end

/-! ## The workflows -/

/-- An account workflow: the record, and one block about it. -/
theorem AccountWorkflow.run_watched {wf : AccountWorkflow} {keycloakId : String}
    (hm : wf.Kicks → moves) :
    (wf.run keycloakId admin.subject admin.username homeserverDomain).wp
      (idWatch homeserverDomain moves) .start fun _ _ => True := by
  obtain ⟨f, hf, hblock⟩ := wf.run_only keycloakId admin.subject
    admin.username homeserverDomain
    (P := fun u => Call.About moves (matrixId u.username homeserverDomain))
    fun _ => AccountWorkflow.makes_about hm
  rw [hf]
  refine silent_wp rfl rfl fun x => ?_
  cases x with
  | error e => trivial
  | ok u => exact Prog.wp_mono (fun _ _ _ => trivial) (about_wp moves (hblock u) rfl)

/-- What both requests about one record start with. -/
theorem readFacts_watched {β : Type} {keycloakId : String}
    {f : KeycloakUser → List KeycloakGroup → List KeycloakRole →
      List PolicyBinding → Async (Result β)}
    (hf : ∀ u groups roles bindings, (f u groups roles bindings).Only
      (Call.About moves (matrixId u.username homeserverDomain))) :
    ((Keycloak.getUser keycloakId).andThen fun kcUser =>
      (Keycloak.getUserGroups keycloakId).andThen fun kcGroups =>
      (Keycloak.getUserRoles keycloakId).andThen fun kcRoles =>
      listBindings.andThen fun bindings =>
        f kcUser kcGroups kcRoles bindings).wp
      (idWatch homeserverDomain moves) .start fun _ _ => True := by
  refine silent_wp rfl rfl fun x => ?_
  cases x with
  | error e => trivial
  | ok u =>
  refine silent_wp rfl rfl fun x => ?_
  cases x with
  | error e => trivial
  | ok groups =>
  refine silent_wp rfl rfl fun x => ?_
  cases x with
  | error e => trivial
  | ok roles =>
  refine silent_wp rfl rfl fun x => ?_
  cases x with
  | error e => trivial
  | ok bindings =>
      exact Prog.wp_mono (fun _ _ _ => trivial)
        (about_wp moves (hf u groups roles bindings) rfl)

/-- A user of a page: skipped, or taken up and then one block about them. -/
theorem bulkReconcileUser_watched {bindings : List PolicyBinding}
    {acc : BulkReconcileResult} {u : KeycloakUser} {users : List KeycloakUser}
    (hm : moves) (hq : rd.queue = (u :: users).filter (·.enabled)) :
    (bulkReconcileUser state admin bindings acc u).wp
      (idWatch state.homeserverDomain moves) rd
      fun _ rd' => rd'.queue = users.filter (·.enabled) := by
  rw [bulkReconcileUser]
  cases he : u.enabled with
  | false =>
      rw [List.filter_cons_of_neg (by simp [he])] at hq
      exact hq
  | true =>
      rw [List.filter_cons_of_pos he] at hq
      have hnext : rd.next = ⟨some u.username, users.filter (·.enabled)⟩ := by
        rw [InHand.next, hq]
      refine silent_wp rfl rfl fun x => ?_
      have hstep : rd.step ⟨.keycloak (.getUserGroups u.id), x⟩ = rd.next := rfl
      rw [hstep, hnext]
      cases x with
      | error e => rfl
      | ok groups =>
          refine silent_wp rfl rfl fun y => ?_
          have hblock : ∀ roles, (reconcileMembership u.id
              (matrixId u.username state.homeserverDomain) (groups.map (·.name))
              roles admin.subject admin.username bindings).wp
              (idWatch state.homeserverDomain moves)
              ⟨some u.username, users.filter (·.enabled)⟩ fun _ rd' =>
                rd' = ⟨some u.username, users.filter (·.enabled)⟩ :=
            fun roles => about_wp moves (reconcileMembership_about hm) rfl
          show Prog.wp _ (reconcileMembership _ _ _ _ _ _ _ >>= _) _ _
          refine Prog.wp_seq (hblock _) fun o rd' hrd => ?_
          rw [hrd]
          rfl

theorem bulkReconcilePages_watched {bindings : List PolicyBinding} {fuel : Nat}
    {first : UInt32} {acc : BulkReconcileResult} (hm : moves) :
    (bulkReconcilePages state admin bindings fuel first acc).wp
      (idWatch state.homeserverDomain moves) rd fun _ _ => True := by
  refine wp_bulkReconcilePages (fun first rd _ => silent_wp rfl rfl fun x => ?_) trivial
  cases x with
  | error e => trivial
  | ok page =>
      intro acc
      -- the queue holds the enabled users the loop has not come to
      refine Prog.wp_mono (fun _ _ _ => trivial) (Prog.wp_foldlM
        (fun pre _ rd => ∀ post, page = pre ++ post →
          rd.queue = post.filter (·.enabled)) ?_ ?_)
      · intro pre u post hpage acc rd hrd
        refine Prog.wp_mono (fun _ rd' h post' hpost => ?_)
          (bulkReconcileUser_watched hm (hrd _ hpage))
        rw [hpage, List.append_assoc, List.append_cancel_left_eq,
          List.singleton_append, List.cons.injEq] at hpost
        rw [h, hpost.2]
      · intro post hpage
        rw [show post = page from hpage.symm]
        rfl

theorem bulkReconcile_watched {fuel : Nat} {csrf : String}
    (hm : admin.csrfToken = csrf ∧ state.synapse = true ∧ fuel ≠ 0 → moves) :
    (bulkReconcile state admin fuel csrf).wp
      (idWatch state.homeserverDomain moves) .start fun _ _ => True := by
  refine wp_bulkReconcile trivial (silent_wp rfl rfl fun _ => trivial) ?_
  intro hcsrf hsynapse rd _
  refine silent_wp rfl rfl fun x => ?_
  cases x with
  | error e => trivial
  | ok bindings =>
      cases fuel with
      | zero => trivial
      | succ fuel =>
          exact bulkReconcilePages_watched (hm ⟨hcsrf, hsynapse, Nat.succ_ne_zero fuel⟩)

theorem checked_watched {β : Type} {csrf : String} {p : Async (Result β)}
    {Q : Result β → InHand → Prop} (herr : ∀ e, Q (.error e) rd)
    (hp : admin.csrfToken = csrf →
      p.wp (idWatch homeserverDomain moves) rd Q) :
    (admin.checked csrf p).wp (idWatch homeserverDomain moves) rd Q := by
  rw [Admin.checked, validate]
  by_cases h : admin.csrfToken = csrf
  · rw [if_pos h]
    exact hp h
  · rw [if_neg h]
    exact herr _

theorem shape_wp {α : Type} {p : Async α}
    (hp : p.wp (idWatch homeserverDomain moves) rd fun _ _ => True) :
    p.shape.wp (idWatch homeserverDomain moves) rd fun _ _ => True :=
  Prog.wp_seq hp fun _ _ _ => trivial

/-- Every workflow, whatever it is answered: the calls made while a username is
in hand are about the id put together from it. -/
theorem IdentityWorkflow.run_watched (wf : IdentityWorkflow) :
    (wf.run state admin).wp (idWatch state.homeserverDomain (wf.Moves state admin))
      .start fun _ _ => True := by
  cases wf with
  | reconcile keycloakId csrf =>
      refine shape_wp ?_
      have hchecked : reconcileUser state admin keycloakId csrf =
        admin.checked csrf _ := rfl
      rw [Ref.reconcile, hchecked]
      refine Prog.wp_then (R := fun _ _ => True) ?_ (fun _ _ _ => trivial)
        fun _ _ _ => trivial
      refine checked_watched (fun _ => trivial) fun h => ?_
      split
      · trivial
      · next hs =>
          exact readFacts_watched fun _ _ _ _ =>
            reconcileMembership_about ⟨h, by simpa using hs⟩
  | reconcilePreview keycloakId csrf =>
      refine shape_wp (checked_watched (fun _ => trivial) fun h => ?_)
      split
      · trivial
      · exact readFacts_watched fun _ _ _ _ => previewMembership_about
  | bulkReconcile fuel csrf => exact shape_wp (bulkReconcile_watched id)
  | account wf keycloakId =>
      refine shape_wp (AccountWorkflow.run_watched fun hk => ?_)
      cases wf with
      | offboard synapse bindings => exact hk
      | disable => exact hk
      | reactivate => exact hk
      | delete => exact hk

/-- A call in flight with a username in hand. -/
theorem IdentityWorkflow.in_flight {wf : IdentityWorkflow} {t : List Exchange}
    {c : Call} {k : Answer c → Async Unit} {n : String}
    (hr : (wf.run state admin).Reaches t (.call c k))
    (hn : (InHand.of t).username = some n) :
    (∀ u, c.names = some u → u = matrixId n state.homeserverDomain) ∧
      (c.mutates ≠ none → wf.Moves state admin) :=
  (Prog.wp_monitor_reaches wf.run_watched hr).1 n hn

/-! ## The preview -/

namespace ReconcilePreview

theorem MadeFor.mono {t t' : List Exchange} {p : ReconcilePreview}
    (h : p.MadeFor m t) (ht : ∀ e ∈ t, e ∈ t') : p.MadeFor m t' where
  joins a ha := by
    obtain ⟨members, hm, hin⟩ := h.joins a ha
    exact ⟨members, hm, ht _ hin⟩
  kicks a ha := by
    obtain ⟨members, hm, hin⟩ := h.kicks a ha
    exact ⟨members, hm, ht _ hin⟩
  alreadyCorrect a ha := by
    obtain ⟨members, hm, hin⟩ := h.alreadyCorrect a ha
    exact ⟨members, hm, ht _ hin⟩

end ReconcilePreview

/-- What a round puts on a list, it puts there for what it has just read. -/
theorem previewTarget_madeFor {binding : PolicyBinding} {isMatch : Bool}
    {preview : ReconcilePreview} {r : String} {t : List Exchange}
    (h : preview.MadeFor m t) :
    (previewTarget m binding isMatch preview r).wp .recorder t
      fun p t' => p.MadeFor m t' := by
  rw [previewTarget]
  refine Prog.wp_history_cons trivial fun x => ?_
  have hold : preview.MadeFor m (t ++ [⟨.synapse (.getJoinedRoomMembers r), x⟩]) :=
    h.mono fun e he => List.mem_append_left _ he
  cases x with
  | error e => exact ⟨hold.joins, hold.kicks, hold.alreadyCorrect⟩
  | ok members =>
      have hread : (⟨.synapse (.getJoinedRoomMembers r), .ok members⟩ : Exchange) ∈
          t ++ [⟨.synapse (.getJoinedRoomMembers r), .ok members⟩] := by simp
      show Prog.wp _ (if isMatch && !List.contains members m then _ else _) _ _
      split
      · next hout =>
          have hm : m ∉ members := by
            rw [Bool.and_eq_true, Bool.not_eq_true', List.contains_eq_mem,
              decide_eq_false_iff_not] at hout
            exact hout.2
          refine ⟨fun a ha => ?_, hold.kicks, hold.alreadyCorrect⟩
          rcases List.mem_append.1 ha with ha | ha
          · exact hold.joins a ha
          · rw [List.mem_singleton.1 ha]
            exact ⟨members, hm, hread⟩
      · split
        · next hin =>
            have hm : m ∈ members := by
              rw [Bool.and_eq_true, List.contains_eq_mem, decide_eq_true_eq] at hin
              exact hin.2
            refine ⟨hold.joins, fun a ha => ?_, hold.alreadyCorrect⟩
            rcases List.mem_append.1 ha with ha | ha
            · exact hold.kicks a ha
            · rw [List.mem_singleton.1 ha]
              exact ⟨members, hm, hread⟩
        · split
          · next hin =>
              have hm : m ∈ members := by
                rw [Bool.and_eq_true, List.contains_eq_mem, decide_eq_true_eq] at hin
                exact hin.2
              refine ⟨hold.joins, hold.kicks, fun a ha => ?_⟩
              rcases List.mem_append.1 ha with ha | ha
              · exact hold.alreadyCorrect a ha
              · rw [List.mem_singleton.1 ha]
                exact ⟨members, hm, hread⟩
          · exact hold

theorem previewMembership_madeFor {bindings : List PolicyBinding}
    {groups roles : List String} {t : List Exchange} :
    (previewMembership m bindings groups roles).wp .recorder t
      fun r t' => ∀ p, r = .ok p → p.MadeFor m t' := by
  refine Prog.wp_seq (R := fun (p : ReconcilePreview) t' => p.MadeFor m t') ?_
    fun p t' h q hq => ?_
  · refine Prog.wp_foldlM (fun _ (p : ReconcilePreview) t' => p.MadeFor m t') ?_ ⟨nofun, nofun, nofun⟩
    intro pre b post hb p t' h
    rw [previewBinding, Prog.wp_bind, wp_expandTargets]
    refine ⟨trivial, fun x t'' ht'' => ?_⟩
    obtain rfl : t'' = t' ++ [(⟨.synapse (.getSpaceChildren b.target.roomId), x⟩ :
      Exchange)] := ht''
    have hold : p.MadeFor m (t' ++ [⟨.synapse (.getSpaceChildren
        b.target.roomId), x⟩]) := h.mono fun e he => List.mem_append_left _ he
    exact Prog.wp_foldlM (fun _ (p : ReconcilePreview) t' => p.MadeFor m t')
      (fun _ _ _ _ _ _ h => previewTarget_madeFor h)
      ⟨hold.joins, hold.kicks, hold.alreadyCorrect⟩
  · cases hq
    exact h

/-- A call and an answer at the front of a run that ends well. -/
theorem runs_andThen_ok {β : Type} {c : Call} {f : c.Ret → Async (Result β)}
    {t : List Exchange} {b : β} (hr : ((ask c).andThen f).Runs t (.ok b)) :
    ∃ a t', t = ⟨c, .ok a⟩ :: t' ∧ (f a).Runs t' (.ok b) := by
  obtain ⟨t₁, t₂, a, rfl, h₁, h₂⟩ := hr.of_andThen_ok
  rw [Prog.runs_send_iff.1 h₁]
  exact ⟨a, t₂, rfl, h₂⟩

/-- A preview that comes to a result was made for the id of the record that was
fetched. -/
theorem reconcilePreview_madeFor {keycloakId csrf n : String} {t : List Exchange}
    {p : ReconcilePreview}
    (hr : (reconcilePreview state admin keycloakId csrf).Runs t (.ok p))
    (hn : (InHand.of t).username = some n) :
    p.MadeFor (matrixId n state.homeserverDomain) t := by
  rw [reconcilePreview, Admin.checked, validate] at hr
  by_cases h : admin.csrfToken = csrf
  · rw [if_pos h] at hr
    dsimp only at hr
    split at hr
    · cases (Prog.runs_ret.1 hr).2
    · obtain ⟨u, t₁, rfl, h₁⟩ := runs_andThen_ok hr
      obtain ⟨groups, t₂, rfl, h₂⟩ := runs_andThen_ok h₁
      obtain ⟨roles, t₃, rfl, h₃⟩ := runs_andThen_ok h₂
      obtain ⟨bindings, t, rfl, h₄⟩ := runs_andThen_ok h₃
      have hmade := Prog.wp_history_runs previewMembership_madeFor h₄ p rfl
      have hkeep : t.foldl InHand.step ⟨some u.username, []⟩ =
          ⟨some u.username, []⟩ :=
        Prog.wp_monitor_reaches (about_wp True
          previewMembership_about rfl) h₄
      have hof : InHand.of (⟨.keycloak (.getUser keycloakId), .ok u⟩ ::
          ⟨.keycloak (.getUserGroups keycloakId), .ok groups⟩ ::
          ⟨.keycloak (.getUserRoles keycloakId), .ok roles⟩ ::
          ⟨.policy .listBindings, .ok bindings⟩ :: t) = ⟨some u.username, []⟩ := hkeep
      rw [hof] at hn
      cases hn
      exact hmade.mono fun e he => by simp [he]
  · rw [if_neg h] at hr
    cases (Prog.runs_ret.1 hr).2

/-! ## Runs that get as far as a room -/

/-- A binding of the one group for the one room. -/
def staffRoom : PolicyBinding :=
  ⟨"1", .group "staff", .room "!r:example.org", none, false, "t", "t"⟩

def staff : KeycloakGroup := ⟨"g", "staff", "/staff"⟩

/-- The join is in flight once the room has been found without the user. -/
theorem reconcileMembership_joins
    (keycloakId m actorSubject actorUsername : String) :
    ∃ k, (reconcileMembership keycloakId m ["staff"] [] actorSubject
      actorUsername [staffRoom]).Reaches
      [⟨.synapse (.getSpaceChildren "!r:example.org"), .ok []⟩,
        ⟨.synapse (.getJoinedRoomMembers "!r:example.org"), .ok []⟩]
      (.call (.synapse (.forceJoinUser m "!r:example.org")) k) :=
  ⟨_, _, rfl, _, rfl, rfl⟩

/-- A call that changes somebody's standing, with the username in hand. -/
abbrev IdentityWorkflow.GetsTo (state : AppState) (admin : Admin)
    (wf : IdentityWorkflow) (username : String) : Prop :=
  ∃ t c k, (wf.run state admin).Reaches t (.call c k) ∧
    (InHand.of t).username = some username ∧ c.mutates ≠ none

theorem reconcile_getsTo {keycloakId csrf : String} (n : String)
    (hcsrf : admin.csrfToken = csrf) (hs : state.synapse = true) :
    (IdentityWorkflow.reconcile keycloakId csrf).GetsTo state admin n := by
  have huser : ∃ k, (reconcileUser state admin keycloakId csrf).Reaches
      [⟨.keycloak (.getUser keycloakId), .ok ⟨keycloakId, n, true⟩⟩,
        ⟨.keycloak (.getUserGroups keycloakId), .ok [staff]⟩,
        ⟨.keycloak (.getUserRoles keycloakId), .ok []⟩,
        ⟨.policy .listBindings, .ok [staffRoom]⟩,
        ⟨.synapse (.getSpaceChildren "!r:example.org"), .ok []⟩,
        ⟨.synapse (.getJoinedRoomMembers "!r:example.org"), .ok []⟩]
      (.call (.synapse (.forceJoinUser (matrixId n state.homeserverDomain)
        "!r:example.org")) k) := by
    obtain ⟨k, hk⟩ := reconcileMembership_joins keycloakId
      (matrixId n state.homeserverDomain) admin.subject admin.username
    rw [reconcileUser, validate, if_pos hcsrf, hs]
    exact ⟨k, _, rfl, _, rfl, _, rfl, _, rfl, hk⟩
  obtain ⟨k, hk⟩ := huser
  exact ⟨_, _, _, hk.bind.bind, rfl, Option.some_ne_none _⟩

theorem bulkReconcile_getsTo {fuel : Nat} {csrf : String} (n : String)
    (hcsrf : admin.csrfToken = csrf) (hs : state.synapse = true)
    (hfuel : fuel ≠ 0) :
    (IdentityWorkflow.bulkReconcile fuel csrf).GetsTo state admin n := by
  obtain ⟨fuel, rfl⟩ := Nat.exists_eq_succ_of_ne_zero hfuel
  have hbulk : ∃ k, (bulkReconcile state admin (fuel + 1) csrf).Reaches
      [⟨.keycloak (.countUsers ""), .ok 1⟩, ⟨.policy .listBindings, .ok [staffRoom]⟩,
        ⟨.keycloak (.searchUsers "" pageSize 0), .ok [⟨"1", n, true⟩]⟩,
        ⟨.keycloak (.getUserGroups "1"), .ok [staff]⟩,
        ⟨.keycloak (.getUserRoles "1"), .ok []⟩,
        ⟨.synapse (.getSpaceChildren "!r:example.org"), .ok []⟩,
        ⟨.synapse (.getJoinedRoomMembers "!r:example.org"), .ok []⟩]
      (.call (.synapse (.forceJoinUser (matrixId n state.homeserverDomain)
        "!r:example.org")) k) := by
    obtain ⟨k, hk⟩ := reconcileMembership_joins "1"
      (matrixId n state.homeserverDomain) admin.subject admin.username
    rw [bulkReconcile, validate, if_pos hcsrf, hs]
    exact ⟨_, _, rfl, _, rfl, _, rfl, _, rfl, _, rfl, hk.bind.bind.bind⟩
  obtain ⟨k, hk⟩ := hbulk
  exact ⟨_, _, _, hk.bind, rfl, Option.some_ne_none _⟩

/-- The kick is in flight once the room has been found with the user. -/
theorem kickMappedRoom_kicks (context keycloakId m adminSubject adminUsername r : String)
    (binding : PolicyBinding) (outcome : WorkflowOutcome) :
    ∃ k, (kickMappedRoom context keycloakId m adminSubject adminUsername binding
      outcome r).Reaches [⟨.synapse (.getJoinedRoomMembers r), .ok [m]⟩]
      (.call (.synapse (.kickUserFromRoom m r "Offboarded")) k) := by
  have hround : ∃ k, (show Async WorkflowOutcome from
      if !List.contains [m] m then return outcome else do
        let result ← Synapse.kickUserFromRoom m r "Offboarded"
        let outcome ← logOrWarn outcome
          (stepEntry keycloakId m adminSubject adminUsername
            s!"kick_room_on_{context}" (.of result)
            [("room_id", .str r), ("subject", .str (toString binding.subject))])
        return outcome.warnOn result fun e =>
          s!"Could not kick {m} from {r}: {e}").Reaches []
      (.call (.synapse (.kickUserFromRoom m r "Offboarded")) k) := by
    rw [if_neg (by simp)]
    exact ⟨_, rfl⟩
  obtain ⟨k, hk⟩ := hround
  exact ⟨k, _, rfl, hk⟩

theorem offboardUser_getsTo {keycloakId : String} {bindings : List PolicyBinding}
    (n : String) (hb : bindings ≠ []) :
    (IdentityWorkflow.account (.offboard true bindings) keycloakId).GetsTo
      state admin n := by
  cases bindings with
  | nil => exact absurd rfl hb
  | cons b bindings =>
      have hrun : ∃ e₁ e₂ k, (offboardUser keycloakId admin.subject admin.username
          state.homeserverDomain true (b :: bindings)).Reaches
          [⟨.keycloak (.getUser keycloakId), .ok ⟨keycloakId, n, true⟩⟩,
            ⟨.mas (.getUserByUsername n), .ok none⟩,
            ⟨.keycloak (.logoutUser keycloakId), .ok ()⟩, ⟨.audit e₁, .ok ()⟩,
            ⟨.keycloak (.disableUser keycloakId), .ok ()⟩, ⟨.audit e₂, .ok ()⟩,
            ⟨.synapse (.getSpaceChildren b.target.roomId), .ok []⟩,
            ⟨.synapse (.getJoinedRoomMembers b.target.roomId),
              .ok [matrixId n state.homeserverDomain]⟩]
          (.call (.synapse (.kickUserFromRoom (matrixId n state.homeserverDomain)
            b.target.roomId "Offboarded")) k) := by
        obtain ⟨k, hk⟩ := kickMappedRoom_kicks "offboard" keycloakId
          (matrixId n state.homeserverDomain) admin.subject admin.username
          b.target.roomId b .ok
        exact ⟨_, _, _, _, rfl, _, rfl, _, rfl, _, rfl, _, rfl, _, rfl, _, rfl,
          hk.bind.bind.bind.bind.bind.bind⟩
      obtain ⟨e₁, e₂, k, hk⟩ := hrun
      exact ⟨_, _, _, hk.bind, rfl, Option.some_ne_none _⟩

/-- A workflow that can change somebody's standing can do so for any username. -/
theorem IdentityWorkflow.moves_getsTo {wf : IdentityWorkflow} (n : String)
    (hm : wf.Moves state admin) : wf.GetsTo state admin n := by
  cases wf with
  | reconcile keycloakId csrf => exact reconcile_getsTo n hm.1 hm.2
  | reconcilePreview keycloakId csrf => exact False.elim hm
  | bulkReconcile fuel csrf => exact bulkReconcile_getsTo n hm.1 hm.2.1 hm.2.2
  | account wf keycloakId =>
      cases wf with
      | offboard synapse bindings =>
          obtain ⟨rfl, hb⟩ := hm
          exact offboardUser_getsTo n hb
      | disable => exact False.elim hm
      | reactivate => exact False.elim hm
      | delete => exact False.elim hm

/-! ## Agreement -/

/-- A valid localpart has no colon. -/
theorem colon_notMem {n : String} (h : isValidMatrixLocalpart n = true) :
    ':' ∉ n.toList := by
  rw [isValidMatrixLocalpart, Bool.and_eq_true, List.all_eq_true] at h
  intro hin
  exact absurd (h.2 ':' hin) (by decide)

theorem matrixId_toList {n : String} : (matrixId n homeserverDomain).toList =
    '@' :: n.toList ++ ':' :: homeserverDomain.toList := by
  rw [matrixId, String.toList_append, String.toList_append, String.toList_append]
  show '@' :: n.toList ++ [':'] ++ homeserverDomain.toList = _
  simp

namespace IdentityWorkflow

theorem agreesOn_of_valid {wf : IdentityWorkflow} {n : String}
    (h : isValidMatrixLocalpart n = true) : wf.AgreesOn state admin n := by
  have hderive : (IdentityWorkflow.mapper state).deriveMatrixId n =
      some (matrixId n state.homeserverDomain) := if_pos h
  constructor
  · intro t c k hr hn
    rw [IdentityMapper.Allows, hderive]
    exact (in_flight hr hn).1
  · intro keycloakId csrf _ t p hr hn m' hm'
    rw [hderive, Option.some.injEq] at hm'
    rw [← hm']
    exact reconcilePreview_madeFor hr hn

theorem derive_of_invalid (state : AppState) {n : String}
    (h : ¬ isValidMatrixLocalpart n = true) :
    (IdentityWorkflow.mapper state).deriveMatrixId n = none := if_neg h

theorem agreesOn_iff {wf : IdentityWorkflow} {n : String} :
    wf.AgreesOn state admin n ↔
      isValidMatrixLocalpart n = true ∨ ¬ wf.Moves state admin := by
  by_cases hv : isValidMatrixLocalpart n = true
  · exact iff_of_true (agreesOn_of_valid hv) (.inl hv)
  · have hderive := derive_of_invalid state hv
    constructor
    · intro h
      refine .inr fun hm => ?_
      obtain ⟨t, c, k, hr, hn, hc⟩ := moves_getsTo n hm
      have hallowed := h.calls t c k hr hn
      rw [IdentityMapper.Allows, hderive] at hallowed
      exact hc hallowed
    · intro h
      have hm : ¬ wf.Moves state admin := h.resolve_left hv
      constructor
      · intro t c k hr hn
        rw [IdentityMapper.Allows, hderive]
        exact Classical.byContradiction fun hc => hm ((in_flight hr hn).2 hc)
      · intro keycloakId csrf _ t p _ _ m' hm'
        rw [hderive] at hm'
        cases hm'

/-- For every username: a workflow agrees with `derive_matrix_id` exactly where
that derives an id, or where the workflow changes nobody's standing. Two
usernames never lead to one Matrix id, and where the workflow agrees the id it
acts on has one colon. -/
theorem agrees_exactly (state : AppState) (admin : Admin)
    (wf : IdentityWorkflow) (n : String) :
    (wf.AgreesOn state admin n ↔
      isValidMatrixLocalpart n = true ∨ ¬ wf.Moves state admin) ∧
    (∀ (wf' : IdentityWorkflow) n' u, wf.ActsOn state admin n u → wf'.ActsOn state admin n' u →
      n = n') ∧
    (wf.AgreesOn state admin n → ∀ u, wf.ActsOn state admin n u →
      OneColon state.homeserverDomain u) := by
  refine ⟨agreesOn_iff, ?_, ?_⟩
  · intro wf' n' u hn hn'
    obtain ⟨t, c, k, hr, hin, -, hnames⟩ := hn
    obtain ⟨t', c', k', hr', hin', -, hnames'⟩ := hn'
    have hu := (in_flight hr hin).1 u hnames
    have hu' := (in_flight hr' hin').1 u hnames'
    exact matrixId_inj (hu.symm.trans hu')
  · intro hagrees u hu
    obtain ⟨t, c, k, hr, hin, hmut, hnames⟩ := hu
    have hflight := in_flight hr hin
    have hvalid := (agreesOn_iff.1 hagrees).resolve_right
      fun hm => hm (hflight.2 hmut)
    exact ⟨n.toList, colon_notMem hvalid, hflight.1 u hnames ▸ matrixId_toList⟩

/-- An e-mail address as a username: reconciling forces `@ada@example.org:…`
into a room. -/
theorem mail_address_joins :
    ¬ ∀ (state : AppState) (admin : Admin) (wf : IdentityWorkflow) (n : String),
      wf.AgreesOn state admin n := by
  intro h
  have hagrees := h ⟨"example.org", true⟩ ⟨"a", "admin", "token"⟩
    (.reconcile "1" "token") "ada@example.org"
  rcases agreesOn_iff.1 hagrees with hvalid | hmoves
  · exact absurd hvalid (by decide)
  · exact hmoves ⟨rfl, rfl⟩

end IdentityWorkflow

end MatrixIdentityAdmin.Ref
