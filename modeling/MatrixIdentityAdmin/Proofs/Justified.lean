import MatrixIdentityAdmin.Spec.Reading
import MatrixIdentityAdmin.Proofs.ReconcileSteps

/-!
# Every call of the reconciliation is justified

The reader of `Spec/Reading.lean` watches, and nothing is promised about the
answers. Inside a binding the reading is pinned down completely: the same
binding, the same rooms, and a list of events that only grows. So one round
of the join loop is stated with the events it starts from, the loop invariant
is that the joins read so far are a sublist of the rooms already visited, and
the two loops differ in nothing but direction.
-/

namespace MatrixIdentityAdmin.Ref

open MatrixIdentityAdmin.Lib

variable {keycloakId matrixUserId actorSubject actorUsername : String}
  {groups roles : List String}

/-- The reader, watching. -/
abbrev watch (matrixUserId : String) (groups roles : List String) :
    Env Call Answer Reading :=
  .monitor (Justified matrixUserId groups roles) Reading.step

section

variable {rest : List PolicyBinding} {b : PolicyBinding}
  {targets : List String} {since : List Exchange} {r : String}

/-! ## Inside a binding -/

theorem grantPowerLevel_justified {outcome : WorkflowOutcome}
    (hm : userMatchesBinding b groups roles = true) (hr : r ∈ targets)
    (hjoin : ∃ before entry, ∃ written : Result Unit,
      since = before ++ [⟨.synapse (.forceJoinUser matrixUserId r), .ok ()⟩,
        ⟨.audit entry, written⟩]) :
    (grantPowerLevel matrixUserId b r outcome).wp
      (watch matrixUserId groups roles) (inHand rest b targets since)
      fun _ rd => ∃ since', rd = inHand rest b targets since' ∧
        (calls since').filterMap Call.joins = (calls since).filterMap Call.joins := by
  cases hl : b.powerLevel with
  | none =>
      rw [wp_grantPowerLevel_none hl]
      exact ⟨since, rfl, rfl⟩
  | some level =>
      rw [wp_grantPowerLevel_some hl]
      refine ⟨⟨_, rfl, rfl, hm, hr, hl, hjoin⟩, ?_⟩
      intro x s' h
      obtain rfl := h
      exact ⟨_, rfl, by simp [Call.joins, List.filterMap_cons]⟩

/-- One round of the join loop tries at most the room it is about. -/
theorem joinTarget_justified {outcome : WorkflowOutcome}
    (hm : userMatchesBinding b groups roles = true) (hr : r ∈ targets)
    (horder : ((calls since).filterMap Call.joins ++ [r]).Sublist targets) :
    (joinTarget keycloakId matrixUserId actorSubject actorUsername b
      outcome r).wp (watch matrixUserId groups roles)
      (inHand rest b targets since)
      fun _ rd => ∃ since', rd = inHand rest b targets since' ∧
        ((calls since').filterMap Call.joins).Sublist
          ((calls since).filterMap Call.joins ++ [r]) := by
  refine wp_joinTarget ⟨_, rfl, hr⟩ ?_ ?_ ?_
  · intro e s' h
    obtain rfl := h
    exact ⟨_, rfl, by simp [Call.joins, List.filterMap_cons]⟩
  · intro ms s' h _
    obtain rfl := h
    exact ⟨_, rfl, by simp [Call.joins, List.filterMap_cons]⟩
  · intro ms s₁ h habsent
    obtain rfl := h
    refine ⟨⟨_, rfl, rfl, hm, hr, ⟨since, ms, habsent, rfl⟩, ?_⟩, ?_⟩
    · simpa [Focus.joins, Focus.push, Call.joins, List.filterMap_cons] using horder
    · intro x s₂ h
      obtain rfl := h
      refine ⟨⟨_, rfl⟩, ?_⟩
      intro y s₃ h
      obtain rfl := h
      cases x with
      | error e => exact ⟨_, rfl, by simp [Focus.push, Call.joins, List.filterMap_cons]⟩
      | ok _ =>
          refine Prog.wp_mono ?_ (grantPowerLevel_justified hm hr ?_)
          · intro o rd h
            obtain ⟨since', rfl, hsince'⟩ := h
            refine ⟨since', rfl, ?_⟩
            rw [hsince']
            simp [Focus.push, Call.joins, List.filterMap_cons]
          · exact ⟨_, _, _, List.append_assoc _ [_] [_]⟩

/-- One round of the kick loop tries at most the room it is about. -/
theorem kickTarget_justified {outcome : WorkflowOutcome}
    (hm : userMatchesBinding b groups roles = false)
    (hallow : b.allowRemove = true) (hr : r ∈ targets)
    (horder : ((calls since).filterMap Call.kicks ++ [r]).Sublist targets.reverse) :
    (kickTarget keycloakId matrixUserId actorSubject actorUsername b
      outcome r).wp (watch matrixUserId groups roles)
      (inHand rest b targets since)
      fun _ rd => ∃ since', rd = inHand rest b targets since' ∧
        ((calls since').filterMap Call.kicks).Sublist
          ((calls since).filterMap Call.kicks ++ [r]) := by
  rw [kickTarget_eq]
  refine wp_kickRound ⟨_, rfl, hr⟩ ?_ ?_ ?_
  · intro e s' h
    obtain rfl := h
    exact ⟨_, rfl, by simp [Call.kicks, List.filterMap_cons]⟩
  · intro ms s' h _
    obtain rfl := h
    exact ⟨_, rfl, by simp [Call.kicks, List.filterMap_cons]⟩
  · intro ms s₁ h hpresent
    obtain rfl := h
    refine ⟨⟨_, rfl, rfl, hm, hallow, hr, ⟨since, ms, hpresent, rfl⟩, ?_, rfl⟩,
      ?_⟩
    · simpa [Focus.kicks, Focus.push, Call.kicks, List.filterMap_cons] using horder
    · intro x s₂ h
      obtain rfl := h
      refine ⟨⟨_, rfl⟩, ?_⟩
      intro y s₃ h
      obtain rfl := h
      exact ⟨_, rfl, by simp [Focus.push, Call.kicks, List.filterMap_cons]⟩

/-! ## The two loops -/

/-- The rooms tried so far are a sublist of the rooms visited so far, in
whichever direction they are visited. -/
theorem targets_justified (tried : Call → Option String)
    {round : WorkflowOutcome → String → Async WorkflowOutcome} {l : List String}
    (hround : ∀ pre x post, l = pre ++ x :: post → ∀ outcome since,
      ((calls since).filterMap tried).Sublist pre →
      (round outcome x).wp (watch matrixUserId groups roles)
        (inHand rest b targets since)
        fun _ rd => ∃ since', rd = inHand rest b targets since' ∧
          ((calls since').filterMap tried).Sublist ((calls since).filterMap tried ++ [x]))
    (outcome : WorkflowOutcome) :
    (l.foldlM round outcome).wp (watch matrixUserId groups roles)
      (inHand rest b targets []) fun _ rd => rd.rest = rest := by
  refine Prog.wp_mono ?_ (Prog.wp_foldlM (fun pre _ rd => ∃ since,
    rd = inHand rest b targets since ∧ ((calls since).filterMap tried).Sublist pre) ?_
    ⟨[], rfl, List.nil_sublist _⟩)
  · intro _ rd h
    obtain ⟨since, rfl, -⟩ := h
    rfl
  · intro pre x post hl outcome s h
    obtain ⟨since, rfl, hsub⟩ := h
    refine Prog.wp_mono ?_ (hround pre x post hl outcome since hsub)
    intro _ rd h
    obtain ⟨since', rfl, hsub'⟩ := h
    exact ⟨since', rfl, hsub'.trans (hsub.append (List.Sublist.refl [x]))⟩

theorem reconcileBinding_justified {outcome : WorkflowOutcome} {rd : Reading}
    (hrest : rd.rest = b :: rest) :
    (reconcileBinding keycloakId matrixUserId groups roles actorSubject
      actorUsername outcome b).wp (watch matrixUserId groups roles) rd
      fun _ rd' => rd'.rest = rest := by
  have hopen : ∀ x : Result (List String),
      rd.step ⟨.synapse (.getSpaceChildren b.target.roomId), x⟩ =
        inHand rest b (expansion b.target.roomId x) [] := by
    intro x
    show rd.opened _ x = _
    rw [Reading.opened, hrest]
  -- A room in the middle of the list may be tried after those before it.
  have hnext : ∀ {l pre post tried : List String} {x : String},
      l = pre ++ x :: post → tried.Sublist pre → (tried ++ [x]).Sublist l := by
    intro l pre post tried x h htried
    obtain rfl := h
    exact htried.append (by simp)
  refine wp_reconcileBinding ⟨b, rest, hrest, rfl⟩ ?_ ?_ ?_
  · intro hm x s' h
    obtain rfl := h
    rw [hopen x]
    refine targets_justified Call.joins ?_ _
    intro pre r post hl outcome since hsub
    exact joinTarget_justified hm (by simp [hl]) (hnext hl hsub)
  · intro hm hallow x s' h
    obtain rfl := h
    rw [hopen x]
    refine targets_justified Call.kicks ?_ _
    intro pre r post hl outcome since hsub
    exact kickTarget_justified hm hallow
      (List.mem_reverse.1 (by simp [hl])) (hnext hl hsub)
  · intro hm hallow x s' h
    obtain rfl := h
    rw [hopen x]

end

/-- Whatever it is answered, the reconciliation makes justified calls only. -/
theorem reconcileMembership_justified {bindings : List PolicyBinding} :
    (reconcileMembership keycloakId matrixUserId groups roles actorSubject
      actorUsername bindings).wp (watch matrixUserId groups roles)
      (.start bindings) fun r rd => (∃ o, r = .ok o) ∧ rd.rest = [] := by
  rw [wp_reconcileMembership]
  refine Prog.wp_mono ?_ (Prog.wp_foldlM
    (fun pre _ rd => bindings = pre ++ rd.rest) ?_ rfl)
  · intro o rd hrest
    exact ⟨⟨o, rfl⟩, by simpa using hrest⟩
  · intro pre b post hl outcome rd hrest
    rw [hl, List.append_cancel_left_eq] at hrest
    refine Prog.wp_mono ?_ (reconcileBinding_justified hrest.symm)
    intro _ rd' h
    obtain rfl := h
    simp [hl]

/-- Every call ever issued, answered or not, was justified by what had been
exchanged before it. -/
theorem reconcile_calls_justified {bindings : List PolicyBinding}
    {t : List Exchange} {c : Call}
    {k : Answer c → Async (Result WorkflowOutcome)}
    (h : (reconcileMembership keycloakId matrixUserId groups roles actorSubject
      actorUsername bindings).Reaches t (.call c k)) :
    Justified matrixUserId groups roles (.of bindings t) c :=
  (Prog.wp_monitor_reaches reconcileMembership_justified h).1

/-- Two answers in, the join of an absent member of staff. -/
theorem staff_join_justified :
    let binding : PolicyBinding :=
      ⟨"pb-1", .group "staff", .room "!lounge:example.org", none, false, "", ""⟩
    let t : List Exchange :=
      [⟨.synapse (.getSpaceChildren "!lounge:example.org"), .ok []⟩,
        ⟨.synapse (.getJoinedRoomMembers "!lounge:example.org"),
          .ok ["@bob:example.org"]⟩]
    Justified "@ada:example.org" ["staff"] [] (.of [binding] t)
      (.synapse (.forceJoinUser "@ada:example.org" "!lounge:example.org")) := by
  intro binding t
  have h : ∃ k, (reconcileMembership "kc-1" "@ada:example.org" ["staff"] []
      "sub" "root" [binding]).Reaches t (.call (.synapse (.forceJoinUser
        "@ada:example.org" "!lounge:example.org")) k) :=
    ⟨_, _, rfl, _, rfl, Prog.reaches_nil.2 rfl⟩
  obtain ⟨k, hk⟩ := h
  exact reconcile_calls_justified hk

end MatrixIdentityAdmin.Ref
