import MatrixIdentityAdmin.Lib.Hoare
import MatrixIdentityAdmin.Ref.Reconcile

/-!
# What one round of the reconciliation can do

The step lemmas of `reconcile_membership`, one per function, against an
environment nobody has fixed yet. Every property of the reconciliation below
is an invariant of its two loops, and a round of a loop is opened here and
nowhere else: which calls it makes, in which order, on which answers, and
what outcome it leaves.
-/

namespace MatrixIdentityAdmin.Ref

open MatrixIdentityAdmin.Lib

variable {σ : Type} {E : Env Call Answer σ} {s : σ}

theorem wp_getSpaceChildren {r : String}
    {Q : Result (List String) → σ → Prop} :
    (Synapse.getSpaceChildren r).wp E s Q ↔
      E.pre s (.synapse (.getSpaceChildren r)) ∧
      ∀ (x : Result (List String)) s',
        E.step s (.synapse (.getSpaceChildren r)) x s' → Q x s' := Iff.rfl

theorem wp_getJoinedRoomMembers {r : String}
    {Q : Result (List String) → σ → Prop} :
    (Synapse.getJoinedRoomMembers r).wp E s Q ↔
      E.pre s (.synapse (.getJoinedRoomMembers r)) ∧
      ∀ (x : Result (List String)) s',
        E.step s (.synapse (.getJoinedRoomMembers r)) x s' → Q x s' := Iff.rfl

/-- The warnings `expand_targets` leaves. -/
def expandWarnings (roomId : String) (warnings : List String) :
    Result (List String) → List String
  | .ok _ => warnings
  | .error e =>
      warnings ++ [s!"Could not check space children for {roomId}: {e}"]

theorem wp_expandTargets {roomId : String} {warnings : List String}
    {Q : List String × List String → σ → Prop} :
    (expandTargets roomId warnings).wp E s Q ↔
      E.pre s (.synapse (.getSpaceChildren roomId)) ∧
      ∀ (x : Result (List String)) s',
        E.step s (.synapse (.getSpaceChildren roomId)) x s' →
          Q (expansion roomId x, expandWarnings roomId warnings x) s' := by
  rw [expandTargets, Prog.wp_bind, wp_getSpaceChildren]
  refine and_congr_right fun _ => forall_congr' fun x => ?_
  cases x <;> exact Iff.rfl

section

variable {keycloakId matrixUserId actorSubject actorUsername : String}
  {binding : PolicyBinding} {outcome : WorkflowOutcome} {r : String}
  {Q : WorkflowOutcome → σ → Prop}

theorem wp_grantPowerLevel_none (h : binding.powerLevel = none) :
    (grantPowerLevel matrixUserId binding r outcome).wp E s Q ↔ Q outcome s := by
  rw [grantPowerLevel, h]
  exact Iff.rfl

/-- The warning of a power level that could not be set. -/
def powerWarning (matrixUserId r : String) (level : Int) (e : AppError) :
    String :=
  s!"Joined {matrixUserId} to {r} but could not set power level {level}: {e}"

theorem wp_grantPowerLevel_some {level : Int}
    (h : binding.powerLevel = some level) :
    (grantPowerLevel matrixUserId binding r outcome).wp E s Q ↔
      E.pre s (.synapse (.setPowerLevel r matrixUserId level)) ∧
      ∀ (x : Result Unit) s',
        E.step s (.synapse (.setPowerLevel r matrixUserId level)) x s' →
          Q (outcome.warnOn x (powerWarning matrixUserId r level)) s' := by
  rw [grantPowerLevel, h]
  exact Iff.rfl

/-- The entry a round of the join loop writes. -/
abbrev joinEntry (keycloakId matrixUserId actorSubject actorUsername : String)
    (binding : PolicyBinding) (r : String) (x : Result Unit) : AuditEntry :=
  reconcileEntry keycloakId matrixUserId actorSubject actorUsername
    "join_room_on_reconcile" binding r (.of x)

/-- The entry a round of the kick loop writes. -/
abbrev kickEntry (keycloakId matrixUserId actorSubject actorUsername : String)
    (binding : PolicyBinding) (r : String) (x : Result Unit) : AuditEntry :=
  reconcileEntry keycloakId matrixUserId actorSubject actorUsername
    "kick_room_on_reconcile" binding r (.of x)

/-- The reason a round of the kick loop gives. -/
abbrev kickReason (binding : PolicyBinding) : String :=
  s!"Removed: no longer matches {binding.subject}"

/-- A round of the join loop reads the members, and joins only a user who is
not among them. -/
theorem wp_joinTarget
    (hread : E.pre s (.synapse (.getJoinedRoomMembers r)))
    (herr : ∀ e s', E.step s (.synapse (.getJoinedRoomMembers r)) (.error e) s' →
      Q (outcome.addWarning s!"Could not fetch members of {r}: {e}") s')
    (hin : ∀ (ms : List String) s',
      E.step s (.synapse (.getJoinedRoomMembers r)) (.ok ms) s' →
      matrixUserId ∈ ms → Q outcome s')
    (hout : ∀ (ms : List String) s₁,
      E.step s (.synapse (.getJoinedRoomMembers r)) (.ok ms) s₁ →
      matrixUserId ∉ ms →
      E.pre s₁ (.synapse (.forceJoinUser matrixUserId r)) ∧
      ∀ (x : Result Unit) s₂,
        E.step s₁ (.synapse (.forceJoinUser matrixUserId r)) x s₂ →
        E.pre s₂ (.audit (joinEntry keycloakId matrixUserId actorSubject
          actorUsername binding r x)) ∧
        ∀ (y : Result Unit) s₃,
          E.step s₂ (.audit (joinEntry keycloakId matrixUserId actorSubject
            actorUsername binding r x)) y s₃ →
          match x with
          | .error e => Q ((outcome.logged y).addWarning
              s!"Could not join {matrixUserId} to {r}: {e}") s₃
          | .ok () => (grantPowerLevel matrixUserId binding r
              (outcome.logged y)).wp E s₃ Q) :
    (joinTarget keycloakId matrixUserId actorSubject actorUsername binding
      outcome r).wp E s Q := by
  rw [joinTarget, Prog.wp_bind, wp_getJoinedRoomMembers]
  refine ⟨hread, fun x s₁ hstep => ?_⟩
  cases x with
  | error e => exact herr e s₁ hstep
  | ok ms =>
      simp only []
      split
      · next hmem => exact hin ms s₁ hstep (by simpa using hmem)
      · next hmem =>
          obtain ⟨hjoin, hrest⟩ := hout ms s₁ hstep (by simpa using hmem)
          refine ⟨hjoin, fun x s₂ hx => ?_⟩
          obtain ⟨haudit, hrest⟩ := hrest x s₂ hx
          refine ⟨haudit, fun y s₃ hy => ?_⟩
          have h := hrest y s₃ hy
          cases x <;> exact h

/-! The reconciliation and the offboarding kick in the same way, for different
reasons and under different entries. -/

/-- A round of a kick loop, whatever the loop is for. -/
def kickRound (matrixUserId reason : String) (entry : Result Unit → AuditEntry)
    (outcome : WorkflowOutcome) (r : String) : Async WorkflowOutcome := do
  match ← Synapse.getJoinedRoomMembers r with
  | .error e =>
      return outcome.addWarning s!"Could not fetch members of {r}: {e}"
  | .ok members =>
      if !members.contains matrixUserId then
        return outcome
      else do
        let result ← Synapse.kickUserFromRoom matrixUserId r reason
        let outcome ← logOrWarn outcome (entry result)
        return outcome.warnOn result fun e =>
          s!"Could not kick {matrixUserId} from {r}: {e}"

theorem kickTarget_eq :
    kickTarget keycloakId matrixUserId actorSubject actorUsername binding
      outcome r =
    kickRound matrixUserId (kickReason binding) (kickEntry keycloakId matrixUserId
      actorSubject actorUsername binding r) outcome r := rfl

section

variable {reason : String} {entry : Result Unit → AuditEntry}

/-- A round of a kick loop reads the members, and kicks only a user who is
among them. -/
theorem wp_kickRound
    (hread : E.pre s (.synapse (.getJoinedRoomMembers r)))
    (herr : ∀ e s', E.step s (.synapse (.getJoinedRoomMembers r)) (.error e) s' →
      Q (outcome.addWarning s!"Could not fetch members of {r}: {e}") s')
    (hout : ∀ (ms : List String) s',
      E.step s (.synapse (.getJoinedRoomMembers r)) (.ok ms) s' →
      matrixUserId ∉ ms → Q outcome s')
    (hin : ∀ (ms : List String) s₁,
      E.step s (.synapse (.getJoinedRoomMembers r)) (.ok ms) s₁ →
      matrixUserId ∈ ms →
      E.pre s₁ (.synapse (.kickUserFromRoom matrixUserId r reason)) ∧
      ∀ (x : Result Unit) s₂,
        E.step s₁ (.synapse (.kickUserFromRoom matrixUserId r reason)) x s₂ →
        E.pre s₂ (.audit (entry x)) ∧
        ∀ (y : Result Unit) s₃, E.step s₂ (.audit (entry x)) y s₃ →
          Q ((outcome.logged y).warnOn x fun e =>
            s!"Could not kick {matrixUserId} from {r}: {e}") s₃) :
    (kickRound matrixUserId reason entry outcome r).wp E s Q := by
  rw [kickRound, Prog.wp_bind, wp_getJoinedRoomMembers]
  refine ⟨hread, fun x s₁ hstep => ?_⟩
  cases x with
  | error e => exact herr e s₁ hstep
  | ok ms =>
      simp only []
      split
      · next hmem => exact hout ms s₁ hstep (by simpa using hmem)
      · next hmem => exact hin ms s₁ hstep (by simpa using hmem)

theorem kickRound_only {P : Call → Prop}
    (hread : P (.synapse (.getJoinedRoomMembers r)))
    (hkick : P (.synapse (.kickUserFromRoom matrixUserId r reason)))
    (haudit : ∀ x, P (.audit (entry x))) :
    (kickRound matrixUserId reason entry outcome r).Only P := by
  refine ⟨hread, fun x => ?_⟩
  cases x with
  | error e => trivial
  | ok ms =>
      show Prog.Only P (if !List.contains ms matrixUserId then _ else _)
      split
      · trivial
      · exact ⟨hkick, fun x => ⟨haudit x, fun _ => trivial⟩⟩

end

end

/-! ## The calls of a round -/

section

variable {keycloakId matrixUserId actorSubject actorUsername : String}
  {binding : PolicyBinding} {outcome : WorkflowOutcome} {r : String}
  {P : Call → Prop}

theorem grantPowerLevel_only
    (hpower : ∀ level, binding.powerLevel = some level →
      P (.synapse (.setPowerLevel r matrixUserId level))) :
    (grantPowerLevel matrixUserId binding r outcome).Only P := by
  rw [grantPowerLevel]
  cases hl : binding.powerLevel with
  | none => trivial
  | some level => exact ⟨hpower level hl, fun _ => trivial⟩

theorem joinTarget_only (hread : P (.synapse (.getJoinedRoomMembers r)))
    (hjoin : P (.synapse (.forceJoinUser matrixUserId r)))
    (haudit : ∀ x : Result Unit, P (.audit (joinEntry keycloakId matrixUserId
      actorSubject actorUsername binding r x)))
    (hpower : ∀ level, binding.powerLevel = some level →
      P (.synapse (.setPowerLevel r matrixUserId level))) :
    (joinTarget keycloakId matrixUserId actorSubject actorUsername binding
      outcome r).Only P := by
  refine ⟨hread, fun m => ?_⟩
  cases m with
  | error e => trivial
  | ok ms =>
      show Prog.Only P (if List.contains ms matrixUserId then _ else _)
      split
      · trivial
      · refine ⟨hjoin, fun x => ⟨haudit x, fun y => ?_⟩⟩
        cases x with
        | error e => trivial
        | ok u => exact grantPowerLevel_only hpower

theorem kickTarget_only (hread : P (.synapse (.getJoinedRoomMembers r)))
    (hkick : P (.synapse (.kickUserFromRoom matrixUserId r (kickReason binding))))
    (haudit : ∀ x : Result Unit, P (.audit (kickEntry keycloakId matrixUserId
      actorSubject actorUsername binding r x))) :
    (kickTarget keycloakId matrixUserId actorSubject actorUsername binding
      outcome r).Only P := by
  rw [kickTarget_eq]
  exact kickRound_only hread hkick haudit

end

/-! ## The outer loop -/

/-- What a round of the outer loop does once its child lookup is answered. -/
def bindingRounds (keycloakId matrixUserId : String)
    (groups roles : List String) (actorSubject actorUsername : String)
    (binding : PolicyBinding) (outcome : WorkflowOutcome)
    (x : Result (List String)) : Async WorkflowOutcome :=
  let outcome : WorkflowOutcome :=
    ⟨expandWarnings binding.target.roomId outcome.warnings x⟩
  if userMatchesBinding binding groups roles then
    (expansion binding.target.roomId x).foldlM (joinTarget keycloakId
      matrixUserId actorSubject actorUsername binding) outcome
  else if binding.allowRemove then
    (expansion binding.target.roomId x).reverse.foldlM (kickTarget keycloakId
      matrixUserId actorSubject actorUsername binding) outcome
  else
    .ret outcome

section

variable {keycloakId matrixUserId : String} {groups roles : List String}
  {actorSubject actorUsername : String} {binding : PolicyBinding}
  {outcome : WorkflowOutcome}

theorem reconcileBinding_call :
    reconcileBinding keycloakId matrixUserId groups roles actorSubject
      actorUsername outcome binding =
    .call (.synapse (.getSpaceChildren binding.target.roomId))
      (bindingRounds keycloakId matrixUserId groups roles actorSubject
        actorUsername binding outcome) := by
  refine congrArg (Prog.call _) (funext fun x => ?_)
  cases x <;> rfl

/-- The three ways a round of the outer loop can go on. -/
theorem bindingRounds_cases {x : Result (List String)}
    {P : Async WorkflowOutcome → Prop}
    (hjoin : userMatchesBinding binding groups roles = true →
      P ((expansion binding.target.roomId x).foldlM (joinTarget keycloakId
        matrixUserId actorSubject actorUsername binding)
        ⟨expandWarnings binding.target.roomId outcome.warnings x⟩))
    (hkick : userMatchesBinding binding groups roles = false →
      binding.allowRemove = true →
      P ((expansion binding.target.roomId x).reverse.foldlM (kickTarget
        keycloakId matrixUserId actorSubject actorUsername binding)
        ⟨expandWarnings binding.target.roomId outcome.warnings x⟩))
    (hskip : userMatchesBinding binding groups roles = false →
      binding.allowRemove = false →
      P (.ret ⟨expandWarnings binding.target.roomId outcome.warnings x⟩)) :
    P (bindingRounds keycloakId matrixUserId groups roles actorSubject
      actorUsername binding outcome x) := by
  rw [bindingRounds]
  split
  · next hm => exact hjoin hm
  · next hm =>
      split
      · next hr => exact hkick (by simpa using hm) hr
      · next hr => exact hskip (by simpa using hm) (by simpa using hr)

/-- A round of the outer loop: the child lookup, then the loop the match
decides on. -/
theorem wp_reconcileBinding {Q : WorkflowOutcome → σ → Prop}
    (hpre : E.pre s (.synapse (.getSpaceChildren binding.target.roomId)))
    (hjoin : userMatchesBinding binding groups roles = true →
      ∀ (x : Result (List String)) s',
        E.step s (.synapse (.getSpaceChildren binding.target.roomId)) x s' →
        ((expansion binding.target.roomId x).foldlM (joinTarget keycloakId
          matrixUserId actorSubject actorUsername binding)
          ⟨expandWarnings binding.target.roomId outcome.warnings x⟩).wp E s' Q)
    (hkick : userMatchesBinding binding groups roles = false →
      binding.allowRemove = true → ∀ (x : Result (List String)) s',
        E.step s (.synapse (.getSpaceChildren binding.target.roomId)) x s' →
        ((expansion binding.target.roomId x).reverse.foldlM (kickTarget
          keycloakId matrixUserId actorSubject actorUsername binding)
          ⟨expandWarnings binding.target.roomId outcome.warnings x⟩).wp E s' Q)
    (hskip : userMatchesBinding binding groups roles = false →
      binding.allowRemove = false → ∀ (x : Result (List String)) s',
        E.step s (.synapse (.getSpaceChildren binding.target.roomId)) x s' →
        Q ⟨expandWarnings binding.target.roomId outcome.warnings x⟩ s') :
    (reconcileBinding keycloakId matrixUserId groups roles actorSubject
      actorUsername outcome binding).wp E s Q := by
  rw [reconcileBinding_call, Prog.wp_call]
  refine ⟨hpre, fun x s' hstep => ?_⟩
  exact bindingRounds_cases (P := fun p => p.wp E s' Q)
    (fun hm => hjoin hm x s' hstep) (fun hm hr => hkick hm hr x s' hstep)
    (fun hm hr => hskip hm hr x s' hstep)

end

theorem wp_reconcileMembership {keycloakId matrixUserId : String}
    {groups roles : List String} {actorSubject actorUsername : String}
    {bindings : List PolicyBinding} {Q : Result WorkflowOutcome → σ → Prop} :
    (reconcileMembership keycloakId matrixUserId groups roles actorSubject
      actorUsername bindings).wp E s Q ↔
      (bindings.foldlM (reconcileBinding keycloakId matrixUserId groups roles
        actorSubject actorUsername) WorkflowOutcome.ok).wp E s
          fun outcome s' => Q (.ok outcome) s' := by
  rw [reconcileMembership, Prog.wp_bind]
  exact Iff.rfl

/-- The calls a reconciliation is made of. -/
theorem reconcileMembership_only {keycloakId matrixUserId : String}
    {groups roles : List String} {actorSubject actorUsername : String}
    {bindings : List PolicyBinding} {P : Call → Prop}
    (hsynapse : ∀ c, P (.synapse c))
    (haudit : ∀ action b r result, P (.audit (reconcileEntry keycloakId
      matrixUserId actorSubject actorUsername action b r result))) :
    (reconcileMembership keycloakId matrixUserId groups roles actorSubject
      actorUsername bindings).Only P := by
  refine Prog.Only.bind (Prog.Only.foldlM ?_ _) fun _ => trivial
  intro b _ o
  rw [reconcileBinding_call]
  refine ⟨hsynapse _, fun x => ?_⟩
  refine bindingRounds_cases (P := Prog.Only P) ?_ ?_ fun _ _ => trivial
  · intro _
    exact Prog.Only.foldlM (fun _ _ _ => joinTarget_only (hsynapse _)
      (hsynapse _) (fun _ => haudit _ _ _ _) fun _ _ => hsynapse _) _
  · intro _ _
    exact Prog.Only.foldlM (fun _ _ _ => kickTarget_only (hsynapse _)
      (hsynapse _) fun _ => haudit _ _ _ _) _

/-- The calls a preview is made of. -/
theorem previewMembership_only {matrixUserId : String}
    {bindings : List PolicyBinding} {groups roles : List String} {P : Call → Prop}
    (hchildren : ∀ r, P (.synapse (.getSpaceChildren r)))
    (hread : ∀ r, P (.synapse (.getJoinedRoomMembers r))) :
    (previewMembership matrixUserId bindings groups roles).Only P := by
  refine Prog.Only.bind (Prog.Only.foldlM (fun b _ preview => ?_) _)
    fun _ => trivial
  refine Prog.Only.bind (p := expandTargets b.target.roomId preview.warnings)
    ⟨hchildren _, fun x => ?_⟩ fun targets => ?_
  · cases x with
    | error e => trivial
    | ok rooms => trivial
  · refine Prog.Only.foldlM (fun room _ preview => ?_) _
    rw [previewTarget]
    refine Prog.Only.bind ⟨hread room, fun x => trivial⟩ fun x => ?_
    cases x with
    | error e => trivial
    | ok members =>
        dsimp only
        refine Prog.Only.ite (fun _ => trivial) fun _ => ?_
        refine Prog.Only.ite (fun _ => trivial) fun _ => ?_
        exact Prog.Only.ite (fun _ => trivial) fun _ => trivial

/-- A Synapse whose rooms stay empty and where every call succeeds. -/
def emptyRooms : (c : Call) → Answer c
  | .synapse (.getSpaceChildren _) => .ok []
  | .synapse (.getJoinedRoomMembers _) => .ok []
  | .synapse (.forceJoinUser ..) => .ok ()
  | .synapse (.kickUserFromRoom ..) => .ok ()
  | .synapse (.setPowerLevel ..) => .ok ()
  | .audit _ => .ok ()
  | .keycloak _ | .mas _ | .policy _ => .error (.internal "not asked")

end MatrixIdentityAdmin.Ref
