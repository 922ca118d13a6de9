import MatrixIdentityAdmin.Spec.BulkFacts
import MatrixIdentityAdmin.Proofs.RoomView

/-!
# A reconciliation that was not told the roles

The bindings come sorted, groups before roles. The group bindings do the same
with and without the roles, so up to there the two runs agree room by room.
After that the run without roles knows resets only, and the first of them that
finds the user in the room is the last thing it does there. The run with the
roles makes the same kick exactly when the binding is not held: nothing before
it takes the user out of the room, and no other binding gives the same reason.
-/

namespace MatrixIdentityAdmin.Ref

open MatrixIdentityAdmin.Lib

/-! ## The order of the bindings -/

section

variable {α : Type} {p : α → Bool}

/-- A list in which nothing follows a `p` but another is split by `p`. -/
theorem filter_split {l : List α}
    (h : l.Pairwise fun a b => p a = true → p b = true) :
    l = (l.filter fun a => !p a) ++ l.filter p := by
  induction l with
  | nil => rfl
  | cons a l ih =>
      obtain ⟨ha, hl⟩ := List.pairwise_cons.1 h
      cases hp : p a with
      | false =>
          rw [List.filter_cons_of_pos (by simp [hp]),
            List.filter_cons_of_neg (by simp [hp]), List.cons_append, ← ih hl]
      | true =>
          have hall : ∀ b ∈ l, p b = true := fun b hb => ha b hb hp
          have hnone : (l.filter fun a => !p a) = [] :=
            List.filter_eq_nil_iff.2 fun b hb => by simp [hall b hb]
          have hsome : l.filter p = l := List.filter_eq_self.2 hall
          rw [List.filter_cons_of_neg (by simp [hp]),
            List.filter_cons_of_pos hp, hnone, hsome]
          rfl

end

theorem listed_eq (w : World) : w.listed = w.groupBindings ++ w.roleBindings := by
  refine filter_split (p := fun b : PolicyBinding => b.subject.isRole) ?_
  refine (List.pairwise_insertionSort _ w.bindings).imp ?_
  intro a b hab ha
  cases hb : b.subject with
  | role v => rfl
  | group v =>
      cases hsub : a.subject with
      | group u =>
          rw [hsub] at ha
          cases ha
      | role u =>
          rw [PolicyBinding.sortKey, PolicyBinding.sortKey, hb, hsub,
            Prod.Lex.toLex_le_toLex] at hab
          have hlt : ¬ "role" < "group" := by decide
          have hne : "role" ≠ "group" := by decide
          rcases hab with h | h
          · exact absurd h hlt
          · exact absurd h.1 hne

/-! ## The commands, with and without the roles -/

section

variable {w : World} {m : String} {groups roles : List String}
  {b : PolicyBinding} {r : String}

theorem touches_congr {roles' : List String}
    (h : b.command groups roles' = b.command groups roles) :
    w.touches groups roles' r b = w.touches groups roles r b := by
  rw [World.touches, World.touches, h]

/-- A group binding asks for the same whatever the roles. -/
theorem command_group (h : b.subject.isRole = false) :
    b.command groups [] = b.command groups roles := by
  have hm : userMatchesBinding b groups [] = userMatchesBinding b groups roles := by
    rw [userMatchesBinding, userMatchesBinding]
    cases hs : b.subject with
    | group g => rfl
    | role x =>
        rw [hs] at h
        cases h
  rw [PolicyBinding.command, PolicyBinding.command, hm]

theorem commands_group : w.commands groups [] w.groupBindings r =
    w.commands groups roles w.groupBindings r := by
  rw [World.commands, World.commands, List.flatMap_def, List.flatMap_def]
  refine congrArg List.flatten (List.map_congr_left fun b hb => ?_)
  exact touches_congr (command_group (by simpa using (List.mem_filter.1 hb).2))

theorem command_role (h : b.subject.isRole = true) :
    b.command groups [] = if b.allowRemove then [.reset b] else [] := by
  have hm : userMatchesBinding b groups [] = false := by
    rw [userMatchesBinding]
    cases hs : b.subject with
    | group g =>
        rw [hs] at h
        cases h
    | role x => rfl
  rw [PolicyBinding.command, if_neg (by simp [hm])]

/-- The commands of a binding that does not reach the room. -/
theorem touches_out (h : r ∉ w.targets b) : w.touches groups roles r b = [] := by
  rw [World.touches, List.count_eq_zero.2 h]
  rfl

/-- Those of a binding that reaches it and has one. -/
theorem touches_in {c : Cmd PolicyBinding} (h : r ∈ w.targets b)
    (hc : b.command groups roles = [c]) :
    ∃ n, w.touches groups roles r b = List.replicate (n + 1) c := by
  obtain ⟨n, hn⟩ := Nat.exists_eq_succ_of_ne_zero
    (Nat.ne_of_gt (List.count_pos_iff.2 h))
  refine ⟨n, ?_⟩
  rw [World.touches, hc, hn, List.flatten_replicate_singleton]

/-- Does the binding remove from the room, if it is not held? -/
abbrev removes (w : World) (r : String) (b : PolicyBinding) : Bool :=
  b.allowRemove && (w.targets b).contains r

/-- Without roles the first command the role bindings have for the room is
that of the first that removes. -/
theorem head_role {l : List PolicyBinding} (h : ∀ b ∈ l, b.subject.isRole = true) :
    (w.commands groups [] l r).head? =
      (l.find? (removes w r)).map Cmd.reset := by
  induction l with
  | nil => rfl
  | cons b l ih =>
      have hb : b.command groups [] = if b.allowRemove then [.reset b] else [] :=
        command_role (h b List.mem_cons_self)
      have hl := ih fun x hx => h x (List.mem_cons_of_mem b hx)
      rw [World.commands, List.flatMap_cons, ← World.commands]
      cases hrem : removes w r b with
      | true =>
          obtain ⟨ha, hr⟩ := Bool.and_eq_true_iff.1 hrem
          rw [if_pos ha] at hb
          obtain ⟨n, hn⟩ := touches_in (List.contains_iff_mem.1 hr) hb
          rw [hn, List.find?_cons_of_pos hrem]
          rfl
      | false =>
          have hnone : w.touches groups [] r b = [] := by
            rcases Bool.and_eq_false_iff.1 hrem with ha | hr
            · rw [World.touches, hb, ha]
              simp
            · exact touches_out (by simpa using hr)
          rw [hnone, List.nil_append, hl, List.find?_cons_of_neg (by simp [hrem])]

theorem wants_role {l : List PolicyBinding} (h : ∀ b ∈ l, b.subject.isRole = true) :
    ∀ c ∈ w.commands groups [] l r, c.wants = false := by
  intro c hc
  obtain ⟨b, hb, -, hcb⟩ := World.mem_commands.1 hc
  rw [command_role (h b hb)] at hcb
  split at hcb
  · rw [List.mem_singleton.1 hcb]
    rfl
  · cases hcb

/-- With the roles nothing takes the user out of the room before the first
binding that removes from it, and that one does if it is not held. -/
theorem reset_with_roles {l : List PolicyBinding}
    (hfind : l.find? (removes w r) = some b)
    (hm : userMatchesBinding b groups roles = false) :
    Cmd.reset b ∈ (Latch.run true (w.commands groups roles l r)).2 := by
  obtain ⟨hrem, before, later, rfl, hbefore⟩ :=
    List.find?_eq_some_iff_append.1 hfind
  obtain ⟨ha, hr⟩ := Bool.and_eq_true_iff.1 hrem
  have hcommand : b.command groups roles = [.reset b] := by
    rw [PolicyBinding.command, if_neg (by simp [hm]), if_pos ha]
  obtain ⟨n, hn⟩ := touches_in (List.contains_iff_mem.1 hr) hcommand
  have hidle : ∀ c ∈ w.commands groups roles before r, c.wants = true := by
    intro c hc
    obtain ⟨x, hx, hrx, hcx⟩ := World.mem_commands.1 hc
    rcases PolicyBinding.mem_command.1 hcx with ⟨-, rfl⟩ | ⟨-, hax, rfl⟩
    · rfl
    · have hno := hbefore x hx
      rw [removes, hax, List.contains_iff_mem.2 hrx] at hno
      cases hno
  rw [World.commands, List.flatMap_append, List.flatMap_cons, ← World.commands,
    Latch.run_append, Latch.run_idle hidle, hn, Latch.run_append,
    Latch.run_replicate]
  simp [Cmd.wants]

end

/-! ## The two runs -/

/-- The calls of a run that change the room are what the commands that did
something come to. -/
theorem View.mutating_iff {rd : Reading} {t : List Exchange} {m r : String}
    {w w' : World} {cmds : String → List (Cmd PolicyBinding)} {call : Call}
    (h : View m w w' (rd.tagged t) cmds) :
    call ∈ calls t ∧ call.mutates = some r ↔
      ∃ c ∈ (Latch.run (w.bit m r) (cmds r)).2, call ∈ effects m r c := by
  constructor
  · intro h
    obtain ⟨hcall, hr⟩ := h
    rw [← Reading.tagged_calls rd, List.mem_map] at hcall
    obtain ⟨d, hd, rfl⟩ := hcall
    have hin : d ∈ (rd.tagged t).filter fun d => d.2.changes r :=
      List.mem_filter.2 ⟨hd, by simp [Call.changes, hr]⟩
    rw [h.done, List.mem_flatMap] at hin
    obtain ⟨c, hc, hdeed⟩ := hin
    obtain ⟨call, hcall, rfl⟩ := List.mem_map.1 hdeed
    exact ⟨c, hc, hcall⟩
  · intro h
    obtain ⟨c, hc, hcall⟩ := h
    refine ⟨h.made hc hcall, ?_⟩
    cases c with
    | set b =>
        rcases List.mem_cons.mp hcall with rfl | hpower
        · rfl
        · cases hl : b.powerLevel with
          | none =>
              rw [hl] at hpower
              cases hpower
          | some level =>
              rw [hl] at hpower
              rw [List.mem_singleton.1 hpower]
              rfl
    | reset b =>
        rw [List.mem_singleton.1 hcall]
        rfl

/-- A subject prints as no other does. -/
theorem subject_inj {x y : PolicySubject}
    (h : (toString x).toList = (toString y).toList) : x = y := by
  cases x with
  | group u =>
      cases y with
      | group v =>
          simp [toString, String.toList_append] at h
          rw [String.toList_inj.1 h]
      | role v => simp [toString, String.toList_append] at h
  | role u =>
      cases y with
      | group v => simp [toString, String.toList_append] at h
      | role v =>
          simp [toString, String.toList_append] at h
          rw [String.toList_inj.1 h]

/-- The reason of a kick gives the subject away. -/
theorem kickReason_inj {b b' : PolicyBinding} (h : kickReason b = kickReason b') :
    b.subject = b'.subject := by
  have hl := congrArg String.toList h
  simp [kickReason, String.toList_append] at hl
  exact subject_inj hl

theorem matches_congr {b b' : PolicyBinding} {groups roles : List String}
    (h : b.subject = b'.subject) :
    userMatchesBinding b groups roles = userMatchesBinding b' groups roles := by
  rw [userMatchesBinding, userMatchesBinding, h]

section

variable {w : World} {m : String} {groups roles : List String} {r : String}

/-- What the run without roles does in a room: what the group bindings do
there, and one kick if they leave the user in it. -/
theorem acting_without_roles :
    (Latch.run (w.bit m r) (w.commands groups [] w.listed r)).2 =
      (Latch.run (w.bit m r) (w.commands groups [] w.groupBindings r)).2 ++
        if w.afterGroups m groups r then
          ((w.firstRemoval r).map Cmd.reset).toList
        else [] := by
  have hrole : ∀ b ∈ w.roleBindings, b.subject.isRole = true :=
    fun b hb => (List.mem_filter.1 hb).2
  rw [listed_eq, World.commands, List.flatMap_append, ← World.commands,
    ← World.commands, Latch.run_append, Latch.acting_agree (wants_role hrole),
    head_role hrole]
  show _ ++ (if w.afterGroups m groups r = false then _ else _) = _
  cases w.afterGroups m groups r with
  | true => rfl
  | false => rfl

/-- What the run with the roles does there starts with the same. -/
theorem acting_with_roles :
    (Latch.run (w.bit m r) (w.commands groups roles w.listed r)).2 =
      (Latch.run (w.bit m r) (w.commands groups [] w.groupBindings r)).2 ++
        (Latch.run (w.afterGroups m groups r)
          (w.commands groups roles w.roleBindings r)).2 := by
  rw [listed_eq, World.commands, List.flatMap_append, ← World.commands,
    ← World.commands, Latch.run_append, ← commands_group]
  rfl

/-- A kick for a reason is made for a binding with that subject, and the user
does not match it. -/
theorem unmatched_of_kick {b : PolicyBinding} {c : Cmd PolicyBinding}
    (hc : c ∈ w.commands groups roles w.listed r)
    (heffect : Call.synapse (.kickUserFromRoom m r (kickReason b)) ∈
      effects m r c) : userMatchesBinding b groups roles = false := by
  -- Only a reset kicks, and only one for the same subject gives this reason.
  cases c with
  | set b' =>
      cases hl : b'.powerLevel with
      | none => simp [effects, hl] at heffect
      | some level => simp [effects, hl] at heffect
  | reset b' =>
      have hreason : kickReason b = kickReason b' := by
        simpa [effects] using heffect
      obtain ⟨x, -, -, hcx⟩ := World.mem_commands.1 hc
      rcases PolicyBinding.mem_command.1 hcx with ⟨-, hset⟩ | ⟨hm, -, hreset⟩
      · cases hset
      · cases hreset
        rw [matches_congr (kickReason_inj hreason)]
        exact hm

/-- Unless the user is misled, whatever acts without the roles acts with them. -/
theorem acting_of_not_misled (hnot : ¬ w.Misled m groups roles)
    {c : Cmd PolicyBinding}
    (hc : c ∈ (Latch.run (w.bit m r) (w.commands groups [] w.listed r)).2) :
    c ∈ (Latch.run (w.bit m r) (w.commands groups roles w.listed r)).2 := by
  rw [acting_without_roles, List.mem_append] at hc
  rw [acting_with_roles, List.mem_append]
  rcases hc with hc | hc
  · exact .inl hc
  · right
    cases hafter : w.afterGroups m groups r with
    | false =>
        rw [hafter] at hc
        cases hc
    | true =>
        rw [hafter, if_pos rfl] at hc
        cases hfirst : w.firstRemoval r with
        | none =>
            rw [hfirst] at hc
            cases hc
        | some b =>
            rw [hfirst] at hc
            obtain rfl : c = .reset b := List.mem_singleton.1 hc
            refine reset_with_roles hfirst ?_
            cases hm : userMatchesBinding b groups roles with
            | false => rfl
            | true => exact absurd ⟨r, b, hafter, hfirst, hm⟩ hnot

end

/-- Not told the roles, a reconciliation does nothing it would not have done
anyway, exactly when the user is not misled. -/
theorem lost_roles_iff (keycloakId m : String) (groups roles : List String)
    (actorSubject actorUsername : String) (w : World) :
    let run (roles : List String) :=
      (reconcileMembership keycloakId m groups roles actorSubject actorUsername
        w.listed).exec World.serve w
    (∀ c ∈ calls (run []).trace, c.mutates ≠ none → c ∈ calls (run roles).trace) ↔
      ¬ w.Misled m groups roles := by
  intro run
  have hview : ∀ roles, View m w (run roles).state
      ((Reading.start w.listed).tagged (run roles).trace)
      (w.commands groups roles w.listed) := fun roles =>
    (reconcileMembership_view keycloakId m groups roles actorSubject
      actorUsername w.listed w).2
  constructor
  · intro hsub hmisled
    obtain ⟨r, b, hafter, hfirst, hmatch⟩ := hmisled
    have hkick : Call.synapse (.kickUserFromRoom m r (kickReason b)) ∈
        effects m r (.reset b) := List.mem_singleton_self _
    have hact : Cmd.reset b ∈
        (Latch.run (w.bit m r) (w.commands groups [] w.listed r)).2 := by
      rw [acting_without_roles, if_pos hafter, hfirst]
      simp
    obtain ⟨hcall, hmut⟩ :=
      (hview []).mutating_iff.2 ⟨.reset b, hact, hkick⟩
    have hcall' := hsub _ hcall (by simp [hmut])
    obtain ⟨c, hc, heffect⟩ := (hview roles).mutating_iff.1 ⟨hcall', hmut⟩
    rw [unmatched_of_kick (Latch.acting_mem hc) heffect] at hmatch
    cases hmatch
  · intro hnot call hcall hmut
    obtain ⟨r, hr⟩ := Option.ne_none_iff_exists'.1 hmut
    obtain ⟨c, hc, heffect⟩ := (hview []).mutating_iff.1 ⟨hcall, hr⟩
    exact ((hview roles).mutating_iff.2
      ⟨c, acting_of_not_misled hnot hc, heffect⟩).1

end MatrixIdentityAdmin.Ref
