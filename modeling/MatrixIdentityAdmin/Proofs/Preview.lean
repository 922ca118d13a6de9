import MatrixIdentityAdmin.Proofs.RoomView

/-!
# The preview against the execution

The preview walks the same rooms as the execution and looks at each of them
where it stands, so per room it is the reader of a frozen latch: it announces
every command that wants another bit than the one it sees. The execution is
the latch itself. Both sides are lists of pairs of a room and a subject, and
two such lists agree as multisets when they agree for every room; for one
room the comparison is the one of `Lib/Latch.lean`.
-/

namespace MatrixIdentityAdmin.Ref

open MatrixIdentityAdmin.Lib

/-- The calls a kind of command comes to. -/
def callsOf : Bool → Call → Option String
  | true => Call.joins
  | false => Call.kicks

/-- The lines of a preview for a kind of command. -/
def ReconcilePreview.actions (p : ReconcilePreview) : Bool → List RoomAction
  | true => p.joins
  | false => p.kicks

/-- The pair a command stands for in the room `r`. -/
def keyOf (r : String) (c : Cmd PolicyBinding) : String × Option String :=
  (r, some (toString c.label.subject))

/-! ## Pairs, room by room -/

section

variable {l l' : List (String × Option String)}

theorem perm_of_rooms
    (h : ∀ r, (l.filter fun k => k.1 = r).Perm (l'.filter fun k => k.1 = r)) :
    l.Perm l' := by
  rw [List.perm_iff_count]
  intro k
  have hk : decide (k.1 = k.1) = true := decide_eq_true rfl
  rw [← List.count_filter (l := l) (p := fun x => decide (x.1 = k.1)) hk,
    ← List.count_filter (l := l') (p := fun x => decide (x.1 = k.1)) hk]
  exact (h k.1).count_eq k

end

section

variable {m : String} {groups roles : List String} {w : World} {r : String}

/-! ## The execution -/

theorem callsOf_mutates {want : Bool} {c : Call} (h : callsOf want c = some r) :
    c.mutates = some r := by
  cases c with
  | synapse c =>
      cases c with
      | forceJoinUser u x =>
          cases want with
          | true => exact h
          | false => cases h
      | kickUserFromRoom u x why =>
          cases want with
          | true => cases h
          | false => exact h
      | getJoinedRoomMembers x => cases want <;> cases h
      | getSpaceChildren x => cases want <;> cases h
      | setPowerLevel x u l => cases want <;> cases h
  | keycloak c => cases want <;> cases h
  | mas c => cases want <;> cases h
  | audit entry => cases want <;> cases h
  | policy c => cases want <;> cases h

/-- The attempts in one room are those of the calls that change it. -/
theorem attempts_room {want : Bool} {ds : List (Option PolicyBinding × Call)} :
    (ds.filterMap (Reading.attempt (callsOf want))).filter (fun k => k.1 = r) =
      (ds.filter fun d => d.2.changes r).filterMap
        (Reading.attempt (callsOf want)) := by
  induction ds with
  | nil => rfl
  | cons d ds ih =>
      rw [List.filter_cons]
      cases hp : callsOf want d.2 with
      | none =>
          have hnone : Reading.attempt (callsOf want) d = none := by
            simp [Reading.attempt, hp]
          rw [List.filterMap_cons_none hnone, ih]
          split
          · rw [List.filterMap_cons_none hnone]
          · rfl
      | some x =>
          have hsome : Reading.attempt (callsOf want) d =
              some (x, d.1.map fun b => toString b.subject) := by
            simp [Reading.attempt, hp]
          have hmut : d.2.mutates = some x := callsOf_mutates hp
          rw [List.filterMap_cons_some hsome, List.filter_cons, ih]
          by_cases hx : x = r
          · rw [if_pos (by simpa using hx), if_pos (by simp [Call.changes, hmut, hx]),
              List.filterMap_cons_some hsome]
          · rw [if_neg (by simpa using hx),
              if_neg (by simp [Call.changes, hmut, hx])]

/-- What the commands that did something are as attempts. -/
theorem attempts_deeds {want : Bool} {cs : List (Cmd PolicyBinding)} :
    (cs.flatMap (deeds m r)).filterMap (Reading.attempt (callsOf want)) =
      (cs.filter fun c => c.wants = want).map (keyOf r) := by
  induction cs with
  | nil => rfl
  | cons c cs ih =>
      rw [List.flatMap_cons, List.filterMap_append, ih]
      cases c with
      | set b =>
          cases want with
          | true =>
              cases hl : b.powerLevel <;>
                simp [deeds, effects, hl, Reading.attempt, callsOf, Call.joins,
                  Cmd.wants, keyOf, Cmd.label]
          | false =>
              cases hl : b.powerLevel <;>
                simp [deeds, effects, hl, Reading.attempt, callsOf, Call.kicks,
                  Cmd.wants]
      | reset b =>
          cases want with
          | true =>
              simp [deeds, effects, Reading.attempt, callsOf, Call.joins,
                Cmd.wants]
          | false =>
              simp [deeds, effects, Reading.attempt, callsOf, Call.kicks,
                Cmd.wants, keyOf, Cmd.label]

/-- The attempts of a stretch in one room. -/
theorem View.attempts_eq {w' : World} {ds : List (Option PolicyBinding × Call)}
    {cmds : String → List (Cmd PolicyBinding)} (h : View m w w' ds cmds)
    (want : Bool) (r : String) :
    (ds.filterMap (Reading.attempt (callsOf want))).filter (fun k => k.1 = r) =
      ((Latch.run (w.bit m r) (cmds r)).2.filter fun c => c.wants = want).map
        (keyOf r) := by
  rw [attempts_room, h.done, attempts_deeds]

end

/-! ## The preview -/

section

variable {m : String} {groups roles : List String} {w : World}
  {b : PolicyBinding} {r : String}

/-- What one round of the preview announces for the room `x`. -/
def announces (w : World) (m : String) (groups roles : List String)
    (want : Bool) (b : PolicyBinding) (x : String) : List RoomAction :=
  if (b.command groups roles).any (fun c => c.wants = want) &&
      (w.bit m x != want) then
    [⟨x, toString b.subject, b.powerLevel⟩]
  else []

/-- A round looks, and adds what it announces. -/
theorem previewTarget_run (groups roles : List String) (b : PolicyBinding)
    (p : ReconcilePreview) (x : String) (w : World) :
    let o := (previewTarget m b (userMatchesBinding b groups roles) p x).exec
      World.serve w
    o.state = w ∧ ∀ want, o.value.actions want =
      p.actions want ++ announces w m groups roles want b x := by
  intro o
  have ho : o = (previewTarget m b (userMatchesBinding b groups roles) p x).exec
    World.serve w := rfl
  rw [previewTarget, Prog.exec_bind, exec_getJoinedRoomMembers] at ho
  have hin : (w.members x).contains m = w.bit m x := by simp [World.bit]
  simp only [hin] at ho
  cases hm : userMatchesBinding b groups roles with
  | true =>
      cases hb : w.bit m x with
      | true =>
          simp [hm, hb] at ho
          simp [ho, announces, PolicyBinding.command, hm, hb, Cmd.wants,
            ReconcilePreview.actions]
      | false =>
          simp [hm, hb] at ho
          simp [ho, announces, PolicyBinding.command, hm, hb, Cmd.wants,
            ReconcilePreview.actions]
  | false =>
      cases hb : w.bit m x with
      | true =>
          cases ha : b.allowRemove with
          | true =>
              simp [hm, hb, ha] at ho
              simp [ho, announces, PolicyBinding.command, hm, hb, ha, Cmd.wants,
                ReconcilePreview.actions]
          | false =>
              simp [hm, hb, ha] at ho
              simp [ho, announces, PolicyBinding.command, hm, ha]
      | false =>
          simp [hm, hb] at ho
          cases ha : b.allowRemove with
          | true =>
              simp [ho, announces, PolicyBinding.command, hm, hb, ha, Cmd.wants]
          | false => simp [ho, announces, PolicyBinding.command, hm, ha]

/-- What a binding announces for one room is what a frozen latch would. -/
theorem announces_room (want : Bool) :
    (announces w m groups roles want b r).map RoomAction.key =
      ((Latch.announced (w.bit m r) (b.command groups roles)).filter
        fun c => c.wants = want).map (keyOf r) := by
  rw [announces, PolicyBinding.command]
  cases hm : userMatchesBinding b groups roles with
  | true =>
      cases w.bit m r <;> cases want <;>
        simp [Latch.announced, Cmd.wants, RoomAction.key, keyOf, Cmd.label]
  | false =>
      cases b.allowRemove <;> cases w.bit m r <;> cases want <;>
        simp [Latch.announced, Cmd.wants, RoomAction.key, keyOf, Cmd.label]

theorem announces_elsewhere {x : String} (h : x ≠ r) (want : Bool) :
    ((announces w m groups roles want b x).map RoomAction.key).filter
      (fun k => k.1 = r) = [] := by
  rw [announces]
  split
  · simp [RoomAction.key, h]
  · rfl

theorem announces_here (want : Bool) :
    ((announces w m groups roles want b r).map RoomAction.key).filter
      (fun k => k.1 = r) =
      (announces w m groups roles want b r).map RoomAction.key := by
  rw [announces]
  split
  · simp [RoomAction.key]
  · rfl

/-- The same for all the rooms of the binding, seen from one of them. -/
theorem touches_announced (want : Bool) (l : List String) :
    ((l.flatMap (announces w m groups roles want b)).map
        RoomAction.key).filter (fun k => k.1 = r) =
      ((Latch.announced (w.bit m r) (List.replicate (l.count r)
        (b.command groups roles)).flatten).filter
          fun c => c.wants = want).map (keyOf r) := by
  induction l with
  | nil => rfl
  | cons x l ih =>
      rw [List.flatMap_cons, List.map_append, List.filter_append, ih]
      by_cases hx : x = r
      · rw [hx, announces_here, announces_room, List.count_cons_self,
          List.replicate_succ, List.flatten_cons, Latch.announced_append,
          List.filter_append, List.map_append]
      · rw [announces_elsewhere hx, List.count_cons_of_ne hx, List.nil_append]

theorem commands_announced (want : Bool) (bindings : List PolicyBinding) :
    ((bindings.flatMap fun b => (w.targets b).flatMap
        (announces w m groups roles want b)).map RoomAction.key).filter
          (fun k => k.1 = r) =
      ((Latch.announced (w.bit m r) (w.commands groups roles bindings r)).filter
        fun c => c.wants = want).map (keyOf r) := by
  induction bindings with
  | nil => rfl
  | cons b bindings ih =>
      rw [World.commands, List.flatMap_cons, List.map_append,
        List.filter_append, ih, touches_announced, List.flatMap_cons,
        Latch.announced_append, List.filter_append, List.map_append]
      rfl

theorem previewTargets_run (m : String) (groups roles : List String)
    (b : PolicyBinding) (w : World) (l : List String) :
    ∀ p : ReconcilePreview,
    let o := (l.foldlM (previewTarget m b (userMatchesBinding b groups roles))
      p).exec World.serve w
    o.state = w ∧ ∀ want, o.value.actions want =
      p.actions want ++ l.flatMap (announces w m groups roles want b) := by
  induction l with
  | nil => intro p; exact ⟨rfl, fun want => (List.append_nil _).symm⟩
  | cons x l ih =>
      intro p
      obtain ⟨hstate, hactions⟩ := previewTarget_run (m := m) groups roles b p x w
      rw [List.foldlM_cons, Prog.exec_bind, hstate]
      obtain ⟨hstate', hactions'⟩ := ih ((previewTarget m b
        (userMatchesBinding b groups roles) p x).exec World.serve w).value
      refine ⟨hstate', fun want => ?_⟩
      rw [hactions', hactions, List.flatMap_cons, List.append_assoc]

theorem previewBinding_run (m : String) (groups roles : List String)
    (b : PolicyBinding) (p : ReconcilePreview) (w : World) :
    let o := (previewBinding m groups roles p b).exec World.serve w
    o.state = w ∧ ∀ want, o.value.actions want = p.actions want ++
      (w.targets b).flatMap (announces w m groups roles want b) := by
  obtain ⟨hstate, hactions⟩ := previewTargets_run m groups roles b w
    (w.targets b) p
  exact ⟨hstate, hactions⟩

/-- The preview changes nothing and announces, binding by binding, what the
rooms look like now. -/
theorem previewMembership_run (m : String) (groups roles : List String)
    (bindings : List PolicyBinding) (w : World) :
    ∃ p, ((previewMembership m bindings groups roles).exec World.serve w).value =
        .ok p ∧
      ∀ want, p.actions want = bindings.flatMap fun b =>
        (w.targets b).flatMap (announces w m groups roles want b) := by
  have hloop : ((bindings.foldlM (previewBinding m groups roles) .empty).exec
      World.serve w).state = w ∧ ∀ want, ((bindings.foldlM
        (previewBinding m groups roles) .empty).exec World.serve
          w).value.actions want = bindings.flatMap fun b =>
            (w.targets b).flatMap (announces w m groups roles want b) := by
    refine Prog.exec_foldlM (fun pre _ (p : ReconcilePreview) w' =>
      w' = w ∧ ∀ want, p.actions want = pre.flatMap fun b =>
        (w.targets b).flatMap (announces w m groups roles want b)) ?_ ?_
    · intro pre b post _ _ p w' hI
      obtain ⟨rfl, hactions⟩ := hI
      obtain ⟨hstate, hactions'⟩ := previewBinding_run m groups roles b p w'
      refine ⟨hstate, fun want => ?_⟩
      rw [hactions', hactions, List.flatMap_append, List.flatMap_singleton]
    · refine ⟨rfl, fun want => ?_⟩
      cases want <;> rfl
  rw [previewMembership, Prog.exec_bind]
  exact ⟨_, rfl, hloop.2⟩

end

/-- The preview announces the joins and kicks the execution makes, room by
room and subject by subject, exactly when in no room more than one command
remains, counted from the first that does something. -/
theorem preview_exact_iff (keycloakId m : String) (groups roles : List String)
    (actorSubject actorUsername : String) (bindings : List PolicyBinding)
    (w : World) :
    let t := ((reconcileMembership keycloakId m groups roles actorSubject
      actorUsername bindings).exec World.serve w).trace
    (∃ p, ((previewMembership m bindings groups roles).exec World.serve
        w).value = .ok p ∧
      (p.joins.map RoomAction.key).Perm
        ((Reading.start bindings).attempts Call.joins t) ∧
      (p.kicks.map RoomAction.key).Perm
        ((Reading.start bindings).attempts Call.kicks t)) ↔
    ∀ r, (Latch.active (w.bit m r)
      (w.commands groups roles bindings r)).length ≤ 1 := by
  intro t
  obtain ⟨p, hp, hactions⟩ := previewMembership_run m groups roles bindings w
  have hview := (reconcileMembership_view keycloakId m groups roles actorSubject
    actorUsername bindings w).2
  have hannounced : ∀ want r,
      ((p.actions want).map RoomAction.key).filter (fun k => k.1 = r) =
        ((Latch.announced (w.bit m r) (w.commands groups roles bindings
          r)).filter fun c => c.wants = want).map (keyOf r) := by
    intro want r
    rw [hactions, commands_announced]
  constructor
  · intro h r
    obtain ⟨p', hp', hjoins, hkicks⟩ := h
    obtain rfl : p' = p := by
      rw [hp] at hp'
      exact (Except.ok.inj hp').symm
    refine Latch.active_le_one fun want => ?_
    have hperm : ((p'.actions want).map RoomAction.key).Perm
        ((Reading.start bindings).attempts (callsOf want) t) := by
      cases want with
      | true => exact hjoins
      | false => exact hkicks
    have hlen := (hperm.filter fun k => decide (k.1 = r)).length_eq
    rw [hannounced, Reading.attempts, hview.attempts_eq, List.length_map,
      List.length_map] at hlen
    exact hlen
  · intro hone
    have hperm : ∀ want, ((p.actions want).map RoomAction.key).Perm
        ((Reading.start bindings).attempts (callsOf want) t) := by
      intro want
      refine perm_of_rooms fun r => ?_
      rw [hannounced, Reading.attempts, hview.attempts_eq,
        Latch.announced_eq (hone r)]
    exact ⟨p, hp, hperm true, hperm false⟩

/-- Ada is a moderator and staff, and both belong in the lounge: she is
announced twice and joined once. -/
theorem two_announced_one_joined :
    let time := "2026-03-09T00:00:00Z"
    let bindings : List PolicyBinding :=
      [⟨"pb-1", .group "moderators", .room "!lounge:example.org", none, false,
          time, time⟩,
        ⟨"pb-2", .group "staff", .room "!lounge:example.org", none, false,
          time, time⟩]
    let groups := ["moderators", "staff"]
    let t := ((reconcileMembership "kc-1" "@ada:example.org" groups [] "sub"
      "root" bindings).exec World.serve .empty).trace
    ∃ p, ((previewMembership "@ada:example.org" bindings groups []).exec
        World.serve .empty).value = .ok p ∧
      p.joins.map RoomAction.key =
        [("!lounge:example.org", some "group:moderators"),
          ("!lounge:example.org", some "group:staff")] ∧
      (Reading.start bindings).attempts Call.joins t =
        [("!lounge:example.org", some "group:moderators")] ∧
      ¬ (p.joins.map RoomAction.key).Perm
        ((Reading.start bindings).attempts Call.joins t) := by
  intro time bindings groups t
  refine ⟨_, rfl, rfl, rfl, ?_⟩
  intro hperm
  exact absurd hperm.length_eq (by decide)

end MatrixIdentityAdmin.Ref
