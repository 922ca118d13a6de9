import MatrixIdentityAdmin.Lib.Topics
import MatrixIdentityAdmin.Proofs.ReconcileSteps

/-!
# Failures are reported once, and stay where they happened

Two facts about the same "warn and go on". The count: a tally of the failed
calls runs along, and every round leaves as many warnings as the tally says.
The containment: what the rounds about one room are answered reaches the
outcome and nothing else, so a run in a world that answers differently about
that room makes the same calls about every other.
-/

namespace MatrixIdentityAdmin.Ref

open MatrixIdentityAdmin.Lib

variable {keycloakId matrixUserId actorSubject actorUsername : String}
  {groups roles : List String} {b : PolicyBinding} {r : String}

/-! ## The count -/

/-- The tally of failed calls; any call may be made. -/
abbrev tally : Env Call Answer Nat :=
  .monitor (fun _ _ => True) fun n e => n + (failed e).toNat

theorem foldl_tally {t : List Exchange} :
    ∀ {n : Nat}, t.foldl (fun n e => n + (failed e).toNat) n =
      n + t.countP failed := by
  induction t with
  | nil => intro n; rfl
  | cons e t ih =>
      intro n
      rw [List.foldl_cons, ih, List.countP_cons]
      cases failed e with
      | false => simp
      | true => simp only [Bool.toNat_true, if_true]; omega

theorem length_warnOn {α : Type} {x : Result α} {outcome : WorkflowOutcome}
    {msg : AppError → String} : (outcome.warnOn x msg).warnings.length =
      outcome.warnings.length + (!x.isOk).toNat := by
  cases x with
  | ok a => rfl
  | error e => exact List.length_append

theorem length_expandWarnings {x : Result (List String)} {ws : List String} :
    (expandWarnings r ws x).length =
      ws.length + (!x.isOk).toNat := by
  cases x with
  | ok a => rfl
  | error e => exact List.length_append

theorem grantPowerLevel_tally {outcome : WorkflowOutcome} {n : Nat}
    (h : outcome.warnings.length = n) :
    (grantPowerLevel matrixUserId b r outcome).wp tally n
      fun o n' => o.warnings.length = n' := by
  cases hl : b.powerLevel with
  | none =>
      rw [wp_grantPowerLevel_none hl]
      exact h
  | some level =>
      rw [wp_grantPowerLevel_some hl]
      refine ⟨trivial, fun x s' hs => ?_⟩
      rw [hs, length_warnOn, h]
      rfl

theorem joinTarget_tally {outcome : WorkflowOutcome} {n : Nat}
    (h : outcome.warnings.length = n) :
    (joinTarget keycloakId matrixUserId actorSubject actorUsername b
      outcome r).wp tally n fun o n' => o.warnings.length = n' := by
  refine wp_joinTarget trivial ?_ ?_ ?_
  · intro e s' hs
    rw [hs]
    exact List.length_append.trans (congrArg (· + 1) h)
  · intro ms s' hs _
    rw [hs]
    exact h
  · intro ms s₁ hs₁ _
    refine ⟨trivial, fun x s₂ hs₂ => ⟨trivial, fun y s₃ hs₃ => ?_⟩⟩
    have hlogged : (outcome.logged y).warnings.length =
        n + (!y.isOk).toNat := by
      rw [WorkflowOutcome.logged, length_warnOn, h]
    cases x with
    | error e =>
        rw [hs₃, hs₂, hs₁]
        refine List.length_append.trans ?_
        rw [hlogged]
        exact Nat.add_right_comm _ _ 1
    | ok u =>
        refine grantPowerLevel_tally ?_
        rw [hlogged, hs₃, hs₂, hs₁]
        rfl

theorem kickRound_tally {reason : String} {entry : Result Unit → AuditEntry}
    {outcome : WorkflowOutcome} {n : Nat} (h : outcome.warnings.length = n) :
    (kickRound matrixUserId reason entry outcome r).wp tally n
      fun o n' => o.warnings.length = n' := by
  refine wp_kickRound trivial ?_ ?_ ?_
  · intro e s' hs
    rw [hs]
    exact List.length_append.trans (congrArg (· + 1) h)
  · intro ms s' hs _
    rw [hs]
    exact h
  · intro ms s₁ hs₁ _
    refine ⟨trivial, fun x s₂ hs₂ => ⟨trivial, fun y s₃ hs₃ => ?_⟩⟩
    rw [length_warnOn, WorkflowOutcome.logged, length_warnOn,
      h, hs₃, hs₂, hs₁]
    exact Nat.add_right_comm _ _ _

/-- A loop whose rounds keep the count keeps it. -/
theorem loop_tally {l : List String}
    {round : WorkflowOutcome → String → Async WorkflowOutcome}
    (hround : ∀ x o m, o.warnings.length = m →
      (round o x).wp tally m fun o m' => o.warnings.length = m')
    {outcome : WorkflowOutcome} {n : Nat} (h : outcome.warnings.length = n) :
    (l.foldlM round outcome).wp tally n fun o n' => o.warnings.length = n' :=
  Prog.wp_foldlM (fun _ o m => o.warnings.length = m)
    (fun _ x _ _ o m hm => hround x o m hm) h

theorem reconcileMembership_tally {bindings : List PolicyBinding} :
    (reconcileMembership keycloakId matrixUserId groups roles actorSubject
      actorUsername bindings).wp tally 0
      fun a n => ∃ o, a = .ok o ∧ o.warnings.length = n := by
  rw [wp_reconcileMembership]
  refine Prog.wp_mono (fun o n h => ⟨o, rfl, h⟩) (Prog.wp_foldlM
    (fun _ o n => o.warnings.length = n) ?_ rfl)
  intro pre b post hl outcome n hn
  have hopen : ∀ (x : Result (List String)) s',
      tally.step n (.synapse (.getSpaceChildren b.target.roomId)) x s' →
      (expandWarnings b.target.roomId outcome.warnings x).length = s' := by
    intro x s' hs
    rw [length_expandWarnings, hn, hs]
    rfl
  refine wp_reconcileBinding trivial ?_ ?_ ?_
  · intro _ x s' hs
    exact loop_tally (fun _ _ _ hm => joinTarget_tally hm) (hopen x s' hs)
  · intro _ _ x s' hs
    exact loop_tally (fun _ _ _ hm => kickRound_tally hm) (hopen x s' hs)
  · intro _ _ x s' hs
    exact hopen x s' hs

/-! ## The containment -/

/-- What a call is about: the children of a space, somebody's place in a room
(an entry belongs to the room it names), or nothing of the kind. -/
inductive Topic where
  | children (spaceId : String)
  | room (roomId : String)
  | elsewhere
deriving DecidableEq, Repr

/-- The room a call to Synapse concerns. -/
def MatrixCall.room : MatrixCall → String
  | .getJoinedRoomMembers r => r
  | .forceJoinUser _ r => r
  | .kickUserFromRoom _ r _ => r
  | .getSpaceChildren r => r
  | .setPowerLevel r _ _ => r

def Call.topic : Call → Topic
  | .synapse (.getSpaceChildren r) => .children r
  | .synapse c => .room c.room
  | .audit entry =>
      match entry.metadata.lookup "room_id" with
      | some (.str r) => .room r
      | _ => .elsewhere
  | _ => .elsewhere

/-- The call to Synapse, if this is one and it concerns another room than `r`. -/
def Call.offRoom (r : String) : Call → Option MatrixCall
  | .synapse c => if c.room = r then none else some c
  | _ => none

/-- The calls to Synapse that concern other rooms than `r`, in order. -/
def otherRooms (r : String) (cs : List Call) : List MatrixCall :=
  cs.filterMap (Call.offRoom r)

/-- All topics but the room `r`. -/
abbrev butRoom (r : String) (k : Topic) : Bool := k ≠ .room r

theorem offRoom_of_topic {c : Call} (h : c.topic = .room r) :
    c.offRoom r = none := by
  cases c with
  | synapse m =>
      have hm : m.room = r := by
        cases m with
        | getSpaceChildren s => cases h
        | getJoinedRoomMembers s => exact Topic.room.inj h
        | forceJoinUser u s => exact Topic.room.inj h
        | kickUserFromRoom u s w => exact Topic.room.inj h
        | setPowerLevel s u l => exact Topic.room.inj h
      exact if_pos hm
  | keycloak m => rfl
  | mas m => rfl
  | audit m => rfl
  | policy m => rfl

theorem otherRooms_seen {cs : List Call} :
    otherRooms r (Table.seen Call.topic (butRoom r) cs) = otherRooms r cs := by
  rw [otherRooms, otherRooms, Table.seen, List.filterMap_filter]
  congr 1
  funext c
  by_cases h : c.topic = .room r
  · rw [offRoom_of_topic h, ite_self]
  · rw [if_pos (by simpa using h)]

/-! A round is about its room, and what it asks does not depend on the
outcome it was handed. -/

theorem grantPowerLevel_shape {o o' : WorkflowOutcome} :
    (grantPowerLevel matrixUserId b r o).shape =
      (grantPowerLevel matrixUserId b r o').shape := by
  rw [grantPowerLevel, grantPowerLevel]
  cases b.powerLevel with
  | none => rfl
  | some level => rfl

theorem joinTarget_shape {o o' : WorkflowOutcome} :
    (joinTarget keycloakId matrixUserId actorSubject actorUsername b o r).shape =
      (joinTarget keycloakId matrixUserId actorSubject actorUsername b o'
        r).shape := by
  refine congrArg (Prog.call _) (funext fun m => ?_)
  cases m with
  | error e => rfl
  | ok ms =>
      show Prog.shape (if List.contains ms matrixUserId then _ else _) =
        Prog.shape (if List.contains ms matrixUserId then _ else _)
      by_cases hin : List.contains ms matrixUserId = true
      · rw [if_pos hin, if_pos hin]
        rfl
      · rw [if_neg hin, if_neg hin]
        refine congrArg (Prog.call _) (funext fun x => ?_)
        refine congrArg (Prog.call _) (funext fun y => ?_)
        cases x with
        | error e => rfl
        | ok u => exact grantPowerLevel_shape

theorem kickTarget_shape {o o' : WorkflowOutcome} :
    (kickTarget keycloakId matrixUserId actorSubject actorUsername b o r).shape =
      (kickTarget keycloakId matrixUserId actorSubject actorUsername b o'
        r).shape := by
  refine congrArg (Prog.call _) (funext fun m => ?_)
  cases m with
  | error e => rfl
  | ok ms =>
      show Prog.shape (if !List.contains ms matrixUserId then _ else _) =
        Prog.shape (if !List.contains ms matrixUserId then _ else _)
      by_cases hout : (!List.contains ms matrixUserId) = true
      · rw [if_pos hout, if_pos hout]
        rfl
      · rw [if_neg hout, if_neg hout]
        rfl

/-! The two worlds, `T` and `T'`, agree but about the room `r`. -/

section

variable {T T' : Table Call Answer Topic}

/-- A loop over rooms whose rounds are about their rooms. -/
theorem targets_contained (hT : ∀ k, k ≠ .room r → T k = T' k)
    {round : WorkflowOutcome → String → Async WorkflowOutcome}
    (honly : ∀ o x, (round o x).Only fun c => c.topic = .room x)
    (hshape : ∀ o o' x, (round o x).shape = (round o' x).shape)
    {l : List String} {o o' : WorkflowOutcome} {h h' : List Call}
    (hseen : Table.seen Call.topic (butRoom r) h =
      Table.seen Call.topic (butRoom r) h') :
    Table.seen Call.topic (butRoom r)
        ((l.foldlM round o).exec (T.serve Call.topic) h).state =
      Table.seen Call.topic (butRoom r)
        ((l.foldlM round o').exec (T'.serve Call.topic) h').state := by
  refine Prog.exec_foldlM_lockstep (R := fun h h' =>
    Table.seen Call.topic (butRoom r) h = Table.seen Call.topic (butRoom r) h')
    ?_ hseen
  intro x _ o o' h h' hseen
  by_cases hx : x = r
  · have hown : ∀ o, (round o x).Only fun c => butRoom r c.topic = false :=
      fun o => (honly o x).mono fun c hc => by simp [hc, hx]
    rw [Table.exec_unseen (hown o), Table.exec_unseen (hown o'), hseen]
  · refine Table.exec_agree_shape (fun k hk => hT k (by simpa using hk))
      ((honly o x).mono fun c hc => ?_) (hshape o o' x) hseen
    simp [hc, hx]

theorem reconcileBinding_contained (hT : ∀ k, k ≠ .room r → T k = T' k)
    {o o' : WorkflowOutcome} {h h' : List Call}
    (hseen : Table.seen Call.topic (butRoom r) h =
      Table.seen Call.topic (butRoom r) h') :
    Table.seen Call.topic (butRoom r)
        ((reconcileBinding keycloakId matrixUserId groups roles actorSubject
          actorUsername o b).exec (T.serve Call.topic) h).state =
      Table.seen Call.topic (butRoom r)
        ((reconcileBinding keycloakId matrixUserId groups roles actorSubject
          actorUsername o' b).exec (T'.serve Call.topic) h').state := by
  let lookup : Call := .synapse (.getSpaceChildren b.target.roomId)
  obtain ⟨hanswer, hnext⟩ := Table.serve_agree
    (fun k hk => hT k (by simpa using hk)) (c := lookup) rfl hseen
  rw [reconcileBinding_call, reconcileBinding_call, Prog.exec_call,
    Prog.exec_call, hanswer]
  simp only [bindingRounds]
  split
  · exact targets_contained hT
      (fun _ _ => joinTarget_only rfl rfl (fun _ => rfl) fun _ _ => rfl)
      (fun _ _ _ => joinTarget_shape) hnext
  · split
    · exact targets_contained hT (fun _ _ => kickTarget_only rfl rfl fun _ => rfl)
        (fun _ _ _ => kickTarget_shape) hnext
    · exact hnext

theorem reconcileMembership_contained (hT : ∀ k, k ≠ .room r → T k = T' k)
    {bindings : List PolicyBinding} :
    Table.seen Call.topic (butRoom r)
        ((reconcileMembership keycloakId matrixUserId groups roles actorSubject
          actorUsername bindings).exec (T.serve Call.topic) []).state =
      Table.seen Call.topic (butRoom r)
        ((reconcileMembership keycloakId matrixUserId groups roles actorSubject
          actorUsername bindings).exec (T'.serve Call.topic) []).state := by
  rw [reconcileMembership, Prog.exec_bind, Prog.exec_bind]
  simp only [Prog.exec_pure]
  refine Prog.exec_foldlM_lockstep (R := fun h h' =>
    Table.seen Call.topic (butRoom r) h = Table.seen Call.topic (butRoom r) h')
    ?_ rfl
  intro b _ o o' h h' hseen
  exact reconcileBinding_contained hT hseen

end

/-- The reconciliation always comes back with an `Ok` that carries one warning
for each call that failed; and what is answered about one room, joins, kicks,
members, power levels and entries, does not change a call about another. -/
theorem reconcile_reports_and_contains (keycloakId matrixUserId : String)
    (groups roles : List String) (actorSubject actorUsername : String)
    (bindings : List PolicyBinding) :
    let run := reconcileMembership keycloakId matrixUserId groups roles
      actorSubject actorUsername bindings
    (∀ (σ : Type) (world : σ → (c : Call) → Answer c × σ) (s : σ),
      ∃ outcome, (run.exec world s).value = .ok outcome ∧
        outcome.warnings.length = (run.exec world s).trace.countP failed) ∧
    (∀ (r : String) (T T' : Table Call Answer Topic),
      (∀ k, k ≠ .room r → T k = T' k) →
      otherRooms r (calls (run.exec (T.serve Call.topic) []).trace) =
        otherRooms r (calls (run.exec (T'.serve Call.topic) []).trace)) := by
  intro run
  constructor
  · intro σ world s
    have hrun : run.Runs (run.exec world s).trace (run.exec world s).value :=
      Prog.exec_runs
    obtain ⟨o, ho, hlen⟩ :=
      Prog.wp_monitor_reaches reconcileMembership_tally hrun
    rw [foldl_tally, Nat.zero_add] at hlen
    exact ⟨o, ho, hlen⟩
  · intro r T T' hT
    have hseen : Table.seen Call.topic (butRoom r)
          (run.exec (T.serve Call.topic) []).state =
        Table.seen Call.topic (butRoom r)
          (run.exec (T'.serve Call.topic) []).state :=
      reconcileMembership_contained hT
    rw [Table.exec_state, Table.exec_state, List.nil_append,
      List.nil_append] at hseen
    rw [← otherRooms_seen, hseen, otherRooms_seen]

/-- The lounge is down in one of the two worlds; the calls about the library
are the same. -/
theorem lounge_down_contained :
    let run := reconcileMembership "kc-1" "@ada:example.org" ["staff"] []
      "sub" "root"
      [⟨"pb-1", .group "staff", .room "!lounge:example.org", none, false, "", ""⟩,
        ⟨"pb-2", .group "staff", .room "!library:example.org", none, false, "", ""⟩]
    let up : Table Call Answer Topic := fun _ _ c => emptyRooms c
    let down : Table Call Answer Topic := fun k _ c =>
      if k = .room "!lounge:example.org" then .error (.upstream "synapse" "down")
      else emptyRooms c
    otherRooms "!lounge:example.org" (calls (run.exec (up.serve Call.topic) []).trace) =
      otherRooms "!lounge:example.org"
        (calls (run.exec (down.serve Call.topic) []).trace) := by
  intro run up down
  refine (reconcile_reports_and_contains "kc-1" "@ada:example.org" ["staff"] []
    "sub" "root" _).2 "!lounge:example.org" up down ?_
  intro k hk
  funext _ c
  exact (if_neg hk).symm

end MatrixIdentityAdmin.Ref
