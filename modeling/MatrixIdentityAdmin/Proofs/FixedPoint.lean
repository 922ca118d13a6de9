import MatrixIdentityAdmin.Proofs.RoomView

/-!
# The fixed point of the reconciliation

When no room is both granted and barred, the commands a room gets all ask for
the same bit. A latch that hears one opinion ends up with it, whatever the
order and however often it is repeated, and has nothing to do when it hears
it again. That is the final membership, the independence of the order of the
bindings, and the second run that does nothing, in this order.
-/

namespace MatrixIdentityAdmin.Ref

open MatrixIdentityAdmin.Lib

section

variable {m : String} {groups roles : List String} {w w' : World}
  {bindings bindings' : List PolicyBinding} {r : String}

/-- The commands of a room that is not barred agree, and so do those of a
room that is not granted. -/
theorem wants_of_not_barred (h : ¬ w.Barred groups roles bindings r) :
    ∀ c ∈ w.commands groups roles bindings r, c.wants = true := by
  intro c hc
  rw [World.barred_iff] at h
  cases hw : c.wants with
  | true => rfl
  | false => exact absurd ⟨c, hc, hw⟩ h

theorem wants_of_not_granted (h : ¬ w.Granted groups roles bindings r) :
    ∀ c ∈ w.commands groups roles bindings r, c.wants = false := by
  intro c hc
  rw [World.granted_iff] at h
  cases hw : c.wants with
  | false => rfl
  | true => exact absurd ⟨c, hc, hw⟩ h

/-- A room that is neither gets no command. -/
theorem commands_nil (hg : ¬ w.Granted groups roles bindings r)
    (hb : ¬ w.Barred groups roles bindings r) :
    w.commands groups roles bindings r = [] := by
  rw [List.eq_nil_iff_forall_not_mem]
  intro c hc
  have hset := wants_of_not_barred hb c hc
  have hreset := wants_of_not_granted hg c hc
  rw [hset] at hreset
  cases hreset

/-- One opinion for every room. -/
theorem commands_agree
    (hdisjoint : ∀ r, w.Granted groups roles bindings r →
      ¬ w.Barred groups roles bindings r) (r : String) :
    ∃ want, ∀ c ∈ w.commands groups roles bindings r, c.wants = want := by
  by_cases hg : w.Granted groups roles bindings r
  · exact ⟨true, wants_of_not_barred (hdisjoint r hg)⟩
  · exact ⟨false, wants_of_not_granted hg⟩

/-- The bit a room ends up with. -/
theorem final_bit
    (hdisjoint : ∀ r, w.Granted groups roles bindings r →
      ¬ w.Barred groups roles bindings r) :
    (Latch.run (w.bit m r) (w.commands groups roles bindings r)).1 = true ↔
      ¬ w.Barred groups roles bindings r ∧
        (w.Granted groups roles bindings r ∨ m ∈ w.members r) := by
  by_cases hg : w.Granted groups roles bindings r
  · have hb := hdisjoint r hg
    obtain ⟨c, hc, -⟩ := World.granted_iff.1 hg
    rw [Latch.run_agree (wants_of_not_barred hb),
      if_neg (List.ne_nil_of_mem hc)]
    simp [hg, hb]
  · by_cases hb : w.Barred groups roles bindings r
    · obtain ⟨c, hc, -⟩ := World.barred_iff.1 hb
      rw [Latch.run_agree (wants_of_not_granted hg),
        if_neg (List.ne_nil_of_mem hc)]
      simp [hb]
    · rw [commands_nil hg hb]
      simp [hg, hb, World.bit]

/-- What is granted and barred is a matter of the children and of which
bindings there are. -/
theorem granted_congr (hc : w'.children = w.children)
    (hb : bindings'.Perm bindings) :
    w'.Granted groups roles bindings' r ↔ w.Granted groups roles bindings r := by
  rw [World.Granted, World.Granted, World.targets_congr hc]
  simp only [hb.mem_iff]

theorem barred_congr (hc : w'.children = w.children)
    (hb : bindings'.Perm bindings) :
    w'.Barred groups roles bindings' r ↔ w.Barred groups roles bindings r := by
  rw [World.Barred, World.Barred, World.targets_congr hc]
  simp only [hb.mem_iff]

theorem commands_congr (hc : w'.children = w.children) :
    w'.commands groups roles bindings r = w.commands groups roles bindings r := by
  have htouch : w'.touches groups roles r = w.touches groups roles r := by
    funext b
    rw [World.touches, World.touches, World.targets_congr hc]
  rw [World.commands, World.commands, htouch]

/-- A stretch in which no command did anything made no call that changes a
room. -/
theorem View.quiet {ds : List (Option PolicyBinding × Call)}
    {cmds : String → List (Cmd PolicyBinding)} (h : View m w w' ds cmds)
    (hidle : ∀ r, (Latch.run (w.bit m r) (cmds r)).2 = []) :
    ∀ d ∈ ds, d.2.mutates = none := by
  intro d hd
  cases hr : d.2.mutates with
  | none => rfl
  | some r =>
      have hin : d ∈ ds.filter fun d => d.2.changes r :=
        List.mem_filter.2 ⟨hd, by simp [Call.changes, hr]⟩
      rw [h.done, hidle] at hin
      cases hin

/-! ## The three consequences -/

section

variable (keycloakId m : String) (groups roles : List String)
  (actorSubject actorUsername : String)

/-- A reconciliation on a good day. -/
abbrev settle (bindings : List PolicyBinding) (w : World) :
    Outcome Call Answer World (Result WorkflowOutcome) :=
  (reconcileMembership keycloakId m groups roles actorSubject actorUsername
    bindings).exec World.serve w

theorem settle_member
    (hdisjoint : ∀ r, w.Granted groups roles bindings r →
      ¬ w.Barred groups roles bindings r) :
    m ∈ (settle keycloakId m groups roles actorSubject actorUsername bindings
      w).state.members r ↔ ¬ w.Barred groups roles bindings r ∧
        (w.Granted groups roles bindings r ∨ m ∈ w.members r) := by
  have hview := (reconcileMembership_view keycloakId m groups roles actorSubject
    actorUsername bindings w).2
  rw [← final_bit hdisjoint, ← hview.bit r]
  exact decide_eq_true_iff.symm

theorem settle_again
    (hdisjoint : ∀ r, w.Granted groups roles bindings r →
      ¬ w.Barred groups roles bindings r) :
    let run := settle keycloakId m groups roles actorSubject actorUsername
      bindings
    ∀ c ∈ calls (run (run w).state).trace, c.mutates = none := by
  intro run c hc
  have hfirst := (reconcileMembership_view keycloakId m groups roles
    actorSubject actorUsername bindings w).2
  have hsecond := (reconcileMembership_view keycloakId m groups roles
    actorSubject actorUsername bindings (run w).state).2
  have hidle : ∀ r, (Latch.run ((run w).state.bit m r)
      ((run w).state.commands groups roles bindings r)).2 = [] := by
    intro r
    obtain ⟨want, hwant⟩ := commands_agree hdisjoint r
    rw [commands_congr hfirst.same.children, hfirst.bit r,
      Latch.run_settled hwant]
  rw [← Reading.tagged_calls, List.mem_map] at hc
  obtain ⟨d, hd, rfl⟩ := hc
  exact hsecond.quiet hidle d hd

theorem settle_perm
    (hdisjoint : ∀ r, w.Granted groups roles bindings r →
      ¬ w.Barred groups roles bindings r) (hperm : bindings'.Perm bindings)
    (u : String) :
    let run := settle keycloakId m groups roles actorSubject actorUsername
    u ∈ (run bindings' w).state.members r ↔
      u ∈ (run bindings w).state.members r := by
  intro run
  by_cases hu : u = m
  · have hdisjoint' : ∀ r, w.Granted groups roles bindings' r →
        ¬ w.Barred groups roles bindings' r := by
      intro r
      rw [granted_congr rfl hperm, barred_congr rfl hperm]
      exact hdisjoint r
    rw [hu, settle_member keycloakId m groups roles actorSubject actorUsername
      hdisjoint', settle_member keycloakId m groups roles actorSubject
        actorUsername hdisjoint, granted_congr rfl hperm,
      barred_congr rfl hperm]
  · have hsame := fun bindings => (reconcileMembership_view keycloakId m groups
      roles actorSubject actorUsername bindings w).2.same
    rw [(hsame bindings').others r u hu, (hsame bindings).others r u hu]

end

end

/-- Every reconciliation that is asked nothing contradictory brings about the
same membership, whatever the order of its bindings, and has nothing to do
the second time. -/
theorem reconcile_fixed_point (keycloakId m : String)
    (groups roles : List String) (actorSubject actorUsername : String)
    (bindings : List PolicyBinding) (w : World)
    (hdisjoint : ∀ r, w.Granted groups roles bindings r →
      ¬ w.Barred groups roles bindings r) :
    let run (bindings : List PolicyBinding) (w : World) :=
      (reconcileMembership keycloakId m groups roles actorSubject actorUsername
        bindings).exec World.serve w
    let w' := (run bindings w).state
    (run bindings w).value = .ok .ok ∧
    (∀ r, m ∈ w'.members r ↔ ¬ w.Barred groups roles bindings r ∧
      (w.Granted groups roles bindings r ∨ m ∈ w.members r)) ∧
    (∀ r u, u ≠ m → (u ∈ w'.members r ↔ u ∈ w.members r)) ∧
    (∀ r, ¬ w.Granted groups roles bindings r →
      ¬ w.Barred groups roles bindings r →
        w'.members r = w.members r ∧ w'.power r = w.power r) ∧
    (∀ c ∈ calls (run bindings w').trace, c.mutates = none) ∧
    ∀ bindings', bindings'.Perm bindings → ∀ r u,
      (u ∈ (run bindings' w).state.members r ↔ u ∈ w'.members r) := by
  intro run w'
  obtain ⟨hvalue, hview⟩ := reconcileMembership_view keycloakId m groups roles
    actorSubject actorUsername bindings w
  refine ⟨hvalue, fun r => ?_, hview.same.others, fun r hg hb => ?_, ?_, ?_⟩
  · exact settle_member keycloakId m groups roles actorSubject actorUsername
      hdisjoint
  · refine hview.still r ?_
    rw [commands_nil hg hb, Latch.run_nil]
  · exact settle_again keycloakId m groups roles actorSubject actorUsername
      hdisjoint
  · intro bindings' hperm r u
    exact settle_perm keycloakId m groups roles actorSubject actorUsername
      hdisjoint hperm u

/-- Staff belong in the lounge and contractors do not belong in the vault;
Ada is staff, no contractor, and sits in the vault. -/
theorem lounge_and_vault_settled :
    let time := "2026-03-09T00:00:00Z"
    let bindings : List PolicyBinding :=
      [⟨"pb-1", .group "contractors", .room "!vault:example.org", none, true,
          time, time⟩,
        ⟨"pb-2", .group "staff", .room "!lounge:example.org", some 50, false,
          time, time⟩]
    let w : World := { World.empty with
      members := fun r => if r = "!vault:example.org" then
        ["@ada:example.org"] else [] }
    let w' := ((reconcileMembership "kc-1" "@ada:example.org" ["staff"] []
      "sub" "root" bindings).exec World.serve w).state
    w'.members "!vault:example.org" = [] ∧
    w'.members "!lounge:example.org" = ["@ada:example.org"] ∧
    ∀ c ∈ calls ((reconcileMembership "kc-1" "@ada:example.org" ["staff"] []
      "sub" "root" bindings).exec World.serve w').trace, c.mutates = none := by
  intro time bindings w w'
  refine ⟨rfl, rfl, ?_⟩
  have hdisjoint : ∀ r, w.Granted ["staff"] [] bindings r →
      ¬ w.Barred ["staff"] [] bindings r := by
    intro r h hs
    obtain ⟨b, hb, hm, hr⟩ := h
    obtain ⟨b', hb', hm', ha', hr'⟩ := hs
    have hlounge : r = "!lounge:example.org" := by
      rcases List.mem_cons.mp hb with rfl | hb
      · cases hm
      · obtain rfl := List.mem_singleton.1 hb
        exact List.mem_singleton.1 hr
    have hvault : r = "!vault:example.org" := by
      rcases List.mem_cons.mp hb' with rfl | hb'
      · exact List.mem_singleton.1 hr'
      · obtain rfl := List.mem_singleton.1 hb'
        cases ha'
    rw [hlounge] at hvault
    exact absurd hvault (by decide)
  exact (reconcile_fixed_point "kc-1" "@ada:example.org" ["staff"] [] "sub"
    "root" bindings w hdisjoint).2.2.2.2.1

end MatrixIdentityAdmin.Ref
