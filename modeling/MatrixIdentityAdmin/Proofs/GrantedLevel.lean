import Mathlib.Data.List.Induction
import MatrixIdentityAdmin.Spec.GrantedLevel
import MatrixIdentityAdmin.Proofs.RoomView

/-!
# Who grants the power level

What a room sees is a latch that hears the bindings in turn, and a level is
among the effects of the command that sets it. So a level is granted exactly if
a binding that carries one is the binding that finds the user out; a binding
without a level that comes first takes the join, and the level is not set by
this run nor, with the user in the room, by a later one.
-/

namespace MatrixIdentityAdmin.Ref

open MatrixIdentityAdmin.Lib

section

variable {m : String} {groups roles : List String} {w : World}
  {bindings pre : List PolicyBinding} {b c : PolicyBinding} {r : String}

/-! ## The bindings, in turn -/

/-- What a binding leaves of the bit, and what it did. -/
theorem run_touches {bit : Bool} :
    Latch.run bit (w.touches groups roles r b) =
      if w.stirs groups roles r b then
        (userMatchesBinding b groups roles,
          if bit = userMatchesBinding b groups roles then []
          else b.command groups roles)
      else (bit, []) := by
  by_cases hr : r ∈ w.targets b
  · obtain ⟨n, hn⟩ : ∃ n, (w.targets b).count r = n + 1 :=
      Nat.exists_eq_succ_of_ne_zero (Nat.ne_of_gt (List.count_pos_iff.2 hr))
    rw [World.touches, hn]
    by_cases hm : userMatchesBinding b groups roles = true
    · have hs : w.stirs groups roles r b = true := by simp [World.stirs, hr, hm]
      rw [PolicyBinding.command, if_pos hm, List.flatten_replicate_singleton,
        Latch.run_replicate, if_pos hs, hm]
      rfl
    · by_cases ha : b.allowRemove = true
      · have hs : w.stirs groups roles r b = true := by simp [World.stirs, hr, ha]
        rw [PolicyBinding.command, if_neg hm, if_pos ha,
          List.flatten_replicate_singleton, Latch.run_replicate, if_pos hs,
          eq_false_of_ne_true hm]
        rfl
      · rw [PolicyBinding.command, if_neg hm, if_neg ha,
          List.flatten_replicate_nil, if_neg (by simp [World.stirs, hm, ha])]
        rfl
  · rw [World.touches, List.count_eq_zero.2 hr, if_neg (by simp [World.stirs, hr])]
    rfl

/-- A binding joined the user: it covers the room and found the user out. -/
theorem set_mem_run_touches {bit : Bool} :
    .set c ∈ (Latch.run bit (w.touches groups roles r b)).2 ↔
      c = b ∧ w.Covers groups roles r b ∧ bit = false := by
  rw [run_touches, World.Covers]
  by_cases hs : w.stirs groups roles r b = true
  · rw [if_pos hs]
    rw [World.stirs, Bool.and_eq_true, List.contains_iff_mem] at hs
    by_cases hm : userMatchesBinding b groups roles = true
    · cases bit with
      | true => simp [hm]
      | false => simp [hm, hs.1, PolicyBinding.command]
    · have hnot : .set c ∉ b.command groups roles := by
        rw [PolicyBinding.mem_command]
        simp [hm]
      split <;> simp [hm, hnot]
  · rw [if_neg hs]
    constructor
    · intro h
      cases h
    · intro h
      obtain ⟨-, ⟨hm, hr⟩, -⟩ := h
      exact absurd (by simp [World.stirs, hm, hr]) hs

/-- The bit after some bindings is what the last of them that had a say made
of it. -/
theorem run_commands : (Latch.run (w.bit m r) (w.commands groups roles pre r)).1 =
    match (pre.filter (w.stirs groups roles r)).getLast? with
    | some b => userMatchesBinding b groups roles
    | none => w.bit m r := by
  induction pre using List.reverseRecOn with
  | nil => rfl
  | append_singleton pre b ih =>
      rw [World.commands, List.flatMap_append, List.flatMap_singleton,
        Latch.run_append, run_touches, List.filter_append]
      by_cases hs : w.stirs groups roles r b = true
      · rw [if_pos hs, List.filter_cons_of_pos hs, List.filter_nil,
          List.getLast?_concat]
      · rw [if_neg hs, List.filter_cons_of_neg hs, List.filter_nil,
          List.append_nil, List.append_nil]
        exact ih

theorem outAfter_iff : w.OutAfter m groups roles r pre ↔
    (Latch.run (w.bit m r) (w.commands groups roles pre r)).1 = false := by
  rw [World.OutAfter, run_commands]
  cases (pre.filter (w.stirs groups roles r)).getLast? with
  | none => simp [World.bit]
  | some b => exact Iff.rfl

/-- The bindings that joined the user are those that found the user out. -/
theorem findsOut_iff {kind : PolicyBinding → Prop} :
    w.FindsOut m groups roles r bindings kind ↔
      ∃ b, kind b ∧
        .set b ∈ (Latch.run (w.bit m r) (w.commands groups roles bindings r)).2 := by
  rw [World.FindsOut, World.commands]
  simp only [Latch.mem_acting_flatMap, set_mem_run_touches]
  constructor
  · intro h
    obtain ⟨pre, b, post, hl, hcov, hkind, hout⟩ := h
    exact ⟨b, hkind, pre, b, post, hl, rfl, hcov, outAfter_iff.1 hout⟩
  · intro h
    obtain ⟨b, hkind, pre, b', post, hl, rfl, hcov, hout⟩ := h
    exact ⟨pre, b, post, hl, hcov, hkind, outAfter_iff.2 hout⟩

end

/-! ## The run -/

section

variable (keycloakId m : String) (groups roles : List String)
  (actorSubject actorUsername : String) (bindings : List PolicyBinding) (w : World)
  (r : String)

/-- A call that changes the room was made exactly if a command that did
something comes to it. -/
theorem mem_calls_iff {call : Call} (hcall : call.changes r = true) :
    call ∈ calls ((reconcileMembership keycloakId m groups roles actorSubject
      actorUsername bindings).exec World.serve w).trace ↔
      ∃ c ∈ (Latch.run (w.bit m r) (w.commands groups roles bindings r)).2,
        call ∈ effects m r c := by
  obtain ⟨-, hview⟩ := reconcileMembership_view keycloakId m groups roles
    actorSubject actorUsername bindings w
  constructor
  · intro h
    rw [← Reading.tagged_calls (.start bindings), List.mem_map] at h
    obtain ⟨d, hd, rfl⟩ := h
    have hmem : d ∈ _ :=
      (List.mem_filter (p := fun d => d.2.changes r)).2 ⟨hd, hcall⟩
    rw [hview.done, List.mem_flatMap] at hmem
    obtain ⟨c, hc, hdeed⟩ := hmem
    obtain ⟨call, heffect, rfl⟩ := List.mem_map.1 hdeed
    exact ⟨c, hc, heffect⟩
  · intro h
    obtain ⟨c, hc, heffect⟩ := h
    exact hview.made hc heffect

theorem join_mem_iff :
    .synapse (.forceJoinUser m r) ∈ calls ((reconcileMembership keycloakId m
      groups roles actorSubject actorUsername bindings).exec World.serve w).trace ↔
      w.FindsOut m groups roles r bindings fun _ => True := by
  rw [mem_calls_iff keycloakId m groups roles actorSubject actorUsername bindings w r
    (by simp [Call.changes, Call.mutates]), findsOut_iff]
  constructor
  · intro h
    obtain ⟨c, hc, heffect⟩ := h
    cases c with
    | set b => exact ⟨b, trivial, hc⟩
    | reset b => simp [effects] at heffect
  · intro h
    obtain ⟨b, -, hb⟩ := h
    exact ⟨.set b, hb, by simp [effects]⟩

theorem power_mem_iff {level : Int} :
    .synapse (.setPowerLevel r m level) ∈ calls ((reconcileMembership keycloakId m
      groups roles actorSubject actorUsername bindings).exec World.serve w).trace ↔
      w.FindsOut m groups roles r bindings fun b => b.powerLevel = some level := by
  rw [mem_calls_iff keycloakId m groups roles actorSubject actorUsername bindings w r
    (by simp [Call.changes, Call.mutates]), findsOut_iff]
  constructor
  · intro h
    obtain ⟨c, hc, heffect⟩ := h
    cases c with
    | set b => exact ⟨b, by simpa [effects] using heffect, hc⟩
    | reset b => simp [effects] at heffect
  · intro h
    obtain ⟨b, hlevel, hb⟩ := h
    exact ⟨.set b, hb, by simp [effects, hlevel]⟩

end

/-- Where the levels for a room agree, a join comes with the level exactly if
the user is found out by a binding that carries one, whenever by any. -/
theorem reconcileMembership_level_iff (keycloakId m : String)
    (groups roles : List String) (actorSubject actorUsername : String)
    (bindings : List PolicyBinding) (w : World) (r : String) (level : Int)
    (hlevel : w.SoleLevel groups roles r bindings level) :
    let made := calls ((reconcileMembership keycloakId m groups roles actorSubject
      actorUsername bindings).exec World.serve w).trace
    (.synapse (.forceJoinUser m r) ∈ made →
      .synapse (.setPowerLevel r m level) ∈ made) ↔
    (w.FindsOut m groups roles r bindings (fun _ => True) →
      w.FindsOut m groups roles r bindings fun b => b.powerLevel.isSome = true) := by
  intro made
  rw [join_mem_iff, power_mem_iff]
  refine imp_congr_right fun _ => ?_
  constructor
  · intro h
    obtain ⟨pre, b, post, hl, hcov, hb, hout⟩ := h
    exact ⟨pre, b, post, hl, hcov, by simp [hb], hout⟩
  · intro h
    obtain ⟨pre, b, post, hl, hcov, hb, hout⟩ := h
    obtain ⟨l, hbl⟩ := Option.isSome_iff_exists.1 hb
    have hin : b ∈ bindings := by simp [hl]
    have hagree : l = level := hlevel.agreed b hin hcov l hbl
    exact ⟨pre, b, post, hl, hcov, hagree ▸ hbl, hout⟩

/-! Two bindings for one room, of which only one carries a level. -/

def openBinding : PolicyBinding :=
  ⟨"b-1", .group "all", .room "!room:example.org", none, false, "", ""⟩

def leadBinding : PolicyBinding :=
  ⟨"b-2", .group "leads", .room "!room:example.org", some 50, false, "", ""⟩

/-- The binding with the level finds the user out when it comes first. -/
theorem lead_finds_out : World.empty.FindsOut "@ada:example.org" ["all", "leads"] []
    "!room:example.org" [leadBinding, openBinding] fun b => b.powerLevel.isSome = true :=
  ⟨[], leadBinding, [openBinding], rfl, ⟨by decide, by decide⟩, rfl, List.not_mem_nil⟩

/-- So it joins them, and their level is set. -/
theorem lead_before_open_granted :
    .synapse (.setPowerLevel "!room:example.org" "@ada:example.org" 50) ∈
      calls ((reconcileMembership "kc-1" "@ada:example.org" ["all", "leads"] [] "sub"
        "root" [leadBinding, openBinding]).exec World.serve World.empty).trace := by
  have hsole : World.empty.SoleLevel ["all", "leads"] [] "!room:example.org"
      [leadBinding, openBinding] 50 := by
    refine ⟨⟨leadBinding, by decide, ⟨by decide, by decide⟩, rfl⟩, fun b hb _ l hl => ?_⟩
    rcases List.mem_cons.1 hb with rfl | hb
    · cases hl
      rfl
    · cases List.mem_singleton.1 hb
      cases hl
  exact (reconcileMembership_level_iff "kc-1" "@ada:example.org" ["all", "leads"] [] "sub"
    "root" [leadBinding, openBinding] World.empty "!room:example.org" 50 hsole).2
    (fun _ => lead_finds_out) (by decide)

/-- The first binding joins the user, and the level of the second is never set. -/
theorem lead_after_open_dropped :
    ¬ ∀ (keycloakId m : String) (groups roles : List String)
      (actorSubject actorUsername : String) (bindings : List PolicyBinding)
      (w : World) (r : String) (level : Int),
      w.SoleLevel groups roles r bindings level →
      let made := calls ((reconcileMembership keycloakId m groups roles
        actorSubject actorUsername bindings).exec World.serve w).trace
      .synapse (.forceJoinUser m r) ∈ made →
        .synapse (.setPowerLevel r m level) ∈ made := by
  intro h
  have hset := h "kc-1" "@ada:example.org" ["all", "leads"] [] "sub" "root"
    [openBinding, leadBinding] World.empty "!room:example.org" 50
    ⟨⟨leadBinding, by decide, ⟨by decide, by decide⟩, rfl⟩, fun b hb _ l hl => by
      rcases List.mem_cons.1 hb with rfl | hb
      · cases hl
      · cases List.mem_singleton.1 hb
        cases hl
        rfl⟩
    (by decide)
  exact absurd hset (by decide)

end MatrixIdentityAdmin.Ref
