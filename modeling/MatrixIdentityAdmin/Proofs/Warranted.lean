import MatrixIdentityAdmin.Proofs.RoomView
import MatrixIdentityAdmin.Proofs.Steady

/-!
# What the bindings warrant

On a bad day the child lookup of a binding may fail, and then the binding
stands for its own room only, but it never stands for a room outside its
expansion. So whatever goes wrong, a reconciliation joins a user to granted
rooms and kicks from barred ones. Nothing in the code compares the two: a
room may be both, and then an earlier join or an earlier stay does not
survive the binding that bars it.
-/

namespace MatrixIdentityAdmin.Ref

open MatrixIdentityAdmin.Lib

theorem Warranted.reconciling {w : World} {m : String}
    {groups roles : List String} {bindings : List PolicyBinding} {c : Call}
    (h : w.Warranted m groups roles bindings c) : c.reconciling := by
  cases c with
  | keycloak c => exact False.elim h
  | mas c => exact False.elim h
  | synapse c => trivial
  | audit entry => trivial
  | policy c => trivial

section

variable {keycloakId m actorSubject actorUsername : String}
  {groups roles : List String} {bindings : List PolicyBinding}
  {b : PolicyBinding} {o : WorkflowOutcome} {w w₀ : World}

/-- A lookup that failed loses targets and adds none. -/
theorem expansion_targets {x : Result (List String)} {w' : World}
    (h : World.env.step w (.synapse (.getSpaceChildren b.target.roomId)) x w') :
    ∀ r ∈ expansion b.target.roomId x, r ∈ w.targets b := by
  intro r hr
  cases x with
  | error e =>
      rw [List.mem_singleton.1 hr, World.targets]
      cases w.children b.target.roomId with
      | nil => exact List.mem_singleton_self _
      | cons c cs => exact List.mem_cons_self
  | ok children =>
      have hserve := World.step_ok h (by simp)
      cases hserve
      exact hr

/-- After the lookup, a binding of the list makes warranted calls only. -/
theorem bindingRounds_warranted {x : Result (List String)} (hb : b ∈ bindings)
    (hx : ∀ r ∈ expansion b.target.roomId x, r ∈ w.targets b) :
    (bindingRounds keycloakId m groups roles actorSubject actorUsername b o
      x).Only (w.Warranted m groups roles bindings) := by
  refine bindingRounds_cases (P := Prog.Only _) ?_ ?_ ?_
  · intro hm
    refine Prog.Only.foldlM (fun r hr _ => ?_) _
    have hgranted : w.Granted groups roles bindings r :=
      ⟨b, hb, hm, hx r hr⟩
    exact joinTarget_only trivial ⟨rfl, hgranted⟩ (fun _ => trivial)
      fun _ _ => ⟨rfl, hgranted⟩
  · intro hm hallow
    refine Prog.Only.foldlM (fun r hr _ => ?_) _
    have hbarred : w.Barred groups roles bindings r :=
      ⟨b, hb, hm, hallow, hx r (List.mem_reverse.1 hr)⟩
    exact kickTarget_only trivial ⟨rfl, hbarred⟩ fun _ => trivial
  · intro _ _
    trivial

/-- Whatever goes wrong, a reconciliation makes warranted calls only. So it
keeps an invariant that warranted calls keep, and may be asked anything that
is true of them while the invariant holds. -/
theorem reconcileMembership_warranted {P : World → Call → Prop}
    {I : World → Prop}
    (hpre : ∀ w c, I w → w₀.Warranted m groups roles bindings c → P w c)
    (hstep : ∀ w c x w', I w → w₀.Warranted m groups roles bindings c →
      World.env.step w c x w' → I w')
    (h : I w) (hw : w.children = w₀.children) :
    (reconcileMembership keycloakId m groups roles actorSubject actorUsername
      bindings).wp (World.env.demand P) w fun _ w' => I w' := by
  rw [wp_reconcileMembership]
  refine Prog.wp_mono (fun _ _ hI => hI.1) (Prog.wp_foldlM
    (fun _ _ w => I w ∧ w.children = w₀.children) ?_ ⟨h, hw⟩)
  intro pre b post hl o w hI
  have hb : b ∈ bindings := by simp [hl]
  rw [reconcileBinding_call, Prog.wp_call]
  refine ⟨hpre w _ hI.1 trivial, fun x w' hx => ?_⟩
  have hsteady : ∀ {s c x s'}, (World.env.demand P).step s c x s' → Steady s s' :=
    fun h => step_steady (show World.env.step _ _ _ _ from h)
  have htargets : ∀ r ∈ expansion b.target.roomId x, r ∈ w₀.targets b := by
    rw [← World.targets_congr hI.2]
    exact expansion_targets hx
  refine Prog.Only.wp (bindingRounds_warranted hb htargets)
    (fun w => I w ∧ w.children = w₀.children) ?_ ?_ ?_
  · intro s c hc hI
    exact hpre s c hI.1 hc
  · intro s c x s' hc hI hs
    exact ⟨hstep s c x s' hI.1 hc hs, (hsteady hs).children.trans hI.2⟩
  · exact ⟨hstep w _ x w' hI.1 trivial hx, (hsteady hx).children.trans hI.2⟩

/-! What is warranted and not yet so is attempted when all goes well. -/

theorem granted_joined {r : String} (h : w.Granted groups roles bindings r)
    (hout : m ∉ w.members r) :
    Call.synapse (.forceJoinUser m r) ∈ calls ((reconcileMembership keycloakId m
      groups roles actorSubject actorUsername bindings).exec World.serve
        w).trace := by
  have hview := (reconcileMembership_view keycloakId m groups roles
    actorSubject actorUsername bindings w).2
  have hbit : w.bit m r = false := decide_eq_false hout
  obtain ⟨c, hc, hwants⟩ := World.granted_iff.1 h
  obtain ⟨d, hd, hset⟩ := Latch.exists_acting hc
    (by rw [hwants]; exact Bool.false_ne_true.symm)
  rw [← hbit] at hd
  cases d with
  | set b => exact hview.made hd List.mem_cons_self
  | reset b => exact absurd rfl hset

theorem barred_kicked {r : String} (h : w.Barred groups roles bindings r)
    (hin : m ∈ w.members r) :
    ∃ why, Call.synapse (.kickUserFromRoom m r why) ∈
      calls ((reconcileMembership keycloakId m groups roles actorSubject
        actorUsername bindings).exec World.serve w).trace := by
  have hview := (reconcileMembership_view keycloakId m groups roles
    actorSubject actorUsername bindings w).2
  have hbit : w.bit m r = true := decide_eq_true hin
  obtain ⟨c, hc, hwants⟩ := World.barred_iff.1 h
  obtain ⟨d, hd, hreset⟩ := Latch.exists_acting hc
    (by rw [hwants]; exact Bool.false_ne_true)
  rw [← hbit] at hd
  cases d with
  | set b => exact absurd rfl hreset
  | reset b => exact ⟨kickReason b, hview.made hd (List.mem_singleton_self _)⟩

/-- A kick that was ever issued was from a barred room, granted or not, and a
user who sits in a room that is granted and barred is kicked from it when all
goes well. -/
theorem reconcile_kicks_barred_only (keycloakId m : String)
    (groups roles : List String) (actorSubject actorUsername : String)
    (bindings : List PolicyBinding) (w : World) :
    (∀ t w' u r why k, World.env.Path w t w' →
      (reconcileMembership keycloakId m groups roles actorSubject actorUsername
        bindings).Reaches t
          (.call (.synapse (.kickUserFromRoom u r why)) k) →
      w.Granted groups roles bindings r → w.Barred groups roles bindings r) ∧
    ∀ r, w.Granted groups roles bindings r → w.Barred groups roles bindings r →
      m ∈ w.members r → ∃ why, Call.synapse (.kickUserFromRoom m r why) ∈
        calls ((reconcileMembership keycloakId m groups roles actorSubject
          actorUsername bindings).exec World.serve w).trace := by
  constructor
  · intro t w' u r why k hpath hreach _
    have hwp : (reconcileMembership keycloakId m groups roles actorSubject
        actorUsername bindings).wp (World.env.demand fun _ =>
          w.Warranted m groups roles bindings) w fun _ _ => True :=
      reconcileMembership_warranted (fun _ _ _ hc => hc)
        (fun _ _ _ _ _ _ _ => trivial) trivial rfl
    exact (Prog.wp_demand_reaches hwp hreach hpath).1.2
  · intro r _ hbarred hin
    exact barred_kicked hbarred hin

end

/-! ## Granted and barred -/

section

/-- Contractors do not belong in the lounge, staff do. -/
def contractorsOut : List PolicyBinding :=
  [⟨"pb-1", .group "contractors", .room "!lounge:example.org", none, true,
      "2026-03-09T00:00:00Z", "2026-03-09T00:00:00Z"⟩,
    ⟨"pb-2", .group "staff", .room "!lounge:example.org", none, false,
      "2026-03-09T00:00:00Z", "2026-03-09T00:00:00Z"⟩]

/-- Ada, who is staff and no contractor, sits in the lounge. -/
def adaInLounge : World :=
  { World.empty with members := fun r =>
      if r = "!lounge:example.org" then ["@ada:example.org"] else [] }

theorem lounge_kick_pending : ∃ k, (reconcileMembership "kc-1"
    "@ada:example.org" ["staff"] [] "sub" "root" contractorsOut).Reaches
      [⟨.synapse (.getSpaceChildren "!lounge:example.org"), .ok []⟩,
        ⟨.synapse (.getJoinedRoomMembers "!lounge:example.org"),
          .ok ["@ada:example.org"]⟩]
      (.call (.synapse (.kickUserFromRoom "@ada:example.org"
        "!lounge:example.org" "Removed: no longer matches group:contractors"))
        k) :=
  ⟨_, _, rfl, _, rfl, Prog.reaches_nil.2 rfl⟩

theorem lounge_granted :
    adaInLounge.Granted ["staff"] [] contractorsOut "!lounge:example.org" :=
  ⟨_, List.mem_cons_of_mem _ List.mem_cons_self, rfl,
    List.mem_singleton_self _⟩

/-- Ada is kicked from a room she is granted. -/
theorem granted_and_kicked :
    adaInLounge.Granted ["staff"] [] contractorsOut "!lounge:example.org" ∧
    ∃ t w' k, World.env.Path adaInLounge t w' ∧
      (reconcileMembership "kc-1" "@ada:example.org" ["staff"] [] "sub" "root"
        contractorsOut).Reaches t (.call (.synapse (.kickUserFromRoom
          "@ada:example.org" "!lounge:example.org"
          "Removed: no longer matches group:contractors")) k) := by
  obtain ⟨k, hk⟩ := lounge_kick_pending
  refine ⟨lounge_granted, _, adaInLounge, k, ?_, hk⟩
  exact ⟨_, World.step_serve _ _, _, World.step_serve _ _, rfl⟩

/-- The same kick is within what the bindings warrant. -/
theorem lounge_barred :
    adaInLounge.Barred ["staff"] [] contractorsOut "!lounge:example.org" := by
  obtain ⟨k, hk⟩ := lounge_kick_pending
  refine (reconcile_kicks_barred_only "kc-1" "@ada:example.org" ["staff"] []
    "sub" "root" contractorsOut adaInLounge).1 _ adaInLounge _ _ _ k ?_ hk
      lounge_granted
  exact ⟨_, World.step_serve _ _, _, World.step_serve _ _, rfl⟩

end

end MatrixIdentityAdmin.Ref
